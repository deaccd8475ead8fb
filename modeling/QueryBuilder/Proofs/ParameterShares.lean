import QueryBuilder.Proofs.AllFragments
import QueryBuilder.Proofs.Balance
import QueryBuilder.Proofs.Session
import QueryBuilder.Proofs.Shares

/-!
Which parameters a spliced fragment takes.

Main statement: when a query compiles, the fragments spliced into its statement have as many markers as
parameters together. Each takes its parameters where those of the markers before it end, and these are
its own when it is balanced and what stands before it is balanced together.
-/

set_option autoImplicit false

namespace QueryBuilder

-- The parameters of a fragment that the markers of a part take, which stands behind the part `a`.
def Fragment.share (f a h : Fragment) : List Value :=
  (f.params.drop (Marker.count a.text)).take (Marker.count h.text)

theorem assembled_query {q : Query} {f : Fragment} (made : q.toFragment = .ok f) :
    Assembled (Value.Every fun _ => True) q.spliced f :=
  good_of_ok (assembled_to_fragment q (query_every_of_all (fun _ => trivial) q)) made

theorem balanced_of_rest {before after : List Fragment} {h : Fragment}
    (sums : markers (before ++ h :: after) = supplied (before ++ h :: after))
    (balanced : ∀ g ∈ before ++ after, g.Balanced) : h.Balanced := by
  have left := balanced_sums fun g member => balanced g (List.mem_append_left after member)
  have right := balanced_sums fun g member => balanced g (List.mem_append_right before member)
  simp only [markers, supplied, List.map_append, List.map_cons, List.sum_append, List.sum_cons] at sums left right
  rw [Fragment.Balanced]
  omega

theorem share_own {f a h b : Fragment} (around : f.Around a h b) (before : Marker.count a.text = a.params.length)
    (balanced : h.Balanced) : f.share a h = h.params := by
  rw [Fragment.share, around.params, before, List.drop_left, balanced, List.take_left]

-- The walk goes over what is before the part, over the part, and over what is behind it.
theorem around_expands {f a h b : Fragment} (around : f.Around a h b) {c : Compiled} (compiled : f.compile = .ok c) :
    ∃ pre own post, expandText a.text (f.params.take (Marker.count a.text)) = some pre ∧
      expandText h.text (f.share a h) = some own ∧ c = ((Compiled.empty.extend pre).extend own).extend post := by
  obtain ⟨pieces, expanded, rfl⟩ := number_expands.mp compiled
  have seam := around.before
  rw [around.text] at expanded
  rw [← String.toList_append] at seam
  obtain ⟨pre, rest, first, second, rfl⟩ := expand_text_append seam expanded
  obtain ⟨own, post, inside, -, rfl⟩ := expand_text_append (fun meets => around.behind (meets_behind meets)) second
  exact ⟨pre, own, post, first, inside, by rw [extend_append, extend_append]⟩

theorem spliced_fragments_take_shares (start : Start) (actions : List Action) (d : Draft)
    (reachable : d ∈ ((Session.begin start).run actions).drafts) (c : Compiled)
    (answered : Run.answer Draft.compile d = .ok c) :
    markers d.query.spliced = supplied d.query.spliced ∧
    ∀ before h after, d.query.spliced = before ++ h :: after →
      ((∀ g ∈ before ++ after, g.Balanced) → h.Balanced) ∧
      ∃ f a b pre own post, d.query.toFragment = .ok f ∧ f.Around a h b ∧
        Marker.count a.text + supplied before = a.params.length + markers before ∧
        expandText a.text (f.params.take (Marker.count a.text)) = some pre ∧
        expandText h.text (f.share a h) = some own ∧
        c = ((Compiled.empty.extend pre).extend own).extend post ∧
        (markers before = supplied before → h.Balanced → f.share a h = h.params) := by
  rw [fresh_compile_answer d (reachable_fresh reachable), query_compile_bind] at answered
  cases made : d.query.toFragment with
  | error e =>
      rw [made] at answered
      cases answered
  | ok f =>
      rw [made] at answered
      have assembled := assembled_query made
      have sums : markers d.query.spliced = supplied d.query.spliced := by
        obtain ⟨pieces, expanded, -⟩ := number_expands.mp answered
        have count := assembled_count assembled
        have balanced := expand_text_balanced expanded
        omega
      refine ⟨sums, fun before h after split => ⟨balanced_of_rest (split ▸ sums), ?_⟩⟩
      obtain ⟨a, b, front, -, around⟩ := assembled_around assembled split
      obtain ⟨pre, own, post, first, inside, whole⟩ := around_expands around answered
      have count := assembled_count front
      exact ⟨f, a, b, pre, own, post, rfl, around, count, first, inside, whole,
        fun even balanced => share_own around (by omega) balanced⟩

def oneTable : Fragment :=
  ⟨"WITH t AS (SELECT ? AS x)", [.int 1], none⟩

def firstRows : Fragment :=
  ⟨"FETCH FIRST ? ROWS ONLY", [.int 2], none⟩

def paged : Draft :=
  .ofQuery { Query.empty .select with
    items := [⟨none, .raw "x"⟩]
    tables := [⟨"t", .name "t", .main⟩]
    main := some "t"
    whereTree := some ⟨.and, [.leaf "y" [.array [.int 3, .int 4]]]⟩
    leading := [oneTable]
    trailing := [firstRows] }

def pagedActions : List Action :=
  [.call 0 (.trailing firstRows), .call 0 (.select [.raw "x"]), .call 0 (.table (.text "t") none),
    .call 0 (.addCondition .where_ (.text "y") [.array [.int 3, .int 4]]), .call 0 (.leading oneTable)]

def pagedForm : Compiled where
  sql := "WITH t AS (SELECT $1 AS x) SELECT x FROM t WHERE y IN ($2, $3) FETCH FIRST $4 ROWS ONLY"
  params := [.int 1, .int 3, .int 4, .int 2]

theorem paged_fragments_take_shares :
    paged ∈ ((Session.begin (.blank .select)).run pagedActions).drafts ∧
    Run.answer Draft.compile paged = .ok pagedForm ∧ paged.query.spliced = [oneTable, firstRows] ∧
    firstRows.Balanced ∧
    ∃ f a b, paged.query.toFragment = .ok f ∧ f.Around a firstRows b ∧ f.share a firstRows = [.int 2] := by
  have reachable : paged ∈ ((Session.begin (.blank .select)).run pagedActions).drafts :=
    List.mem_singleton.mpr rfl
  have answered : Run.answer Draft.compile paged = .ok pagedForm := by
    cbv
  have spliced : paged.query.spliced = [oneTable, firstRows] := Query.spliced_own fun insert => by cases insert
  obtain ⟨-, taken⟩ := spliced_fragments_take_shares _ pagedActions paged reachable pagedForm answered
  obtain ⟨rest, f, a, b, _, _, _, made, around, _, _, _, _, own⟩ := taken [oneTable] firstRows [] spliced
  have first : Marker.count oneTable.text = 1 := by decide
  have last : firstRows.Balanced := rest fun g member => by
    rw [List.mem_singleton.mp member]
    exact first
  exact ⟨reachable, answered, spliced, last, f, a, b, made, around, own (by decide) last⟩

-- The marker before the statement takes the parameter that stands behind it.
def crossing : Draft :=
  .ofQuery { Query.empty .select with
    items := [⟨none, .raw "x"⟩]
    tables := [⟨"t", .name "t", .main⟩]
    main := some "t"
    leading := [.ofText "WITH t AS (SELECT ?)"]
    trailing := [⟨"FOR UPDATE", [.int 7], none⟩] }

def crossingForm : Compiled where
  sql := "WITH t AS (SELECT $1) SELECT x FROM t FOR UPDATE"
  params := [.int 7]

theorem surplus_fills_shortage :
    ¬ ∀ (start : Start) (actions : List Action) (d : Draft),
      d ∈ ((Session.begin start).run actions).drafts → ∀ c : Compiled, Run.answer Draft.compile d = .ok c →
      ∀ f ∈ d.query.leading ++ d.query.trailing, f.Balanced := by
  intro balances
  let actions := [Action.call 0 (.leading (.ofText "WITH t AS (SELECT ?)")), .call 0 (.select [.raw "x"]),
    .call 0 (.table (.text "t") none), .call 0 (.trailing ⟨"FOR UPDATE", [.int 7], none⟩)]
  have reachable : crossing ∈ ((Session.begin (.blank .select)).run actions).drafts := List.mem_singleton.mpr rfl
  have answered : Run.answer Draft.compile crossing = .ok crossingForm := by
    cbv
  have short : Marker.count "WITH t AS (SELECT ?)" = 0 := balances _ actions crossing reachable _ answered _ (.head _)
  exact absurd short (by decide)

end QueryBuilder
