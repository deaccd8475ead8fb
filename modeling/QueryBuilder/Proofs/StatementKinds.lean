import Mathlib
import QueryBuilder.Proofs.CommonTables
import QueryBuilder.Proofs.Session
import QueryBuilder.Proofs.Shares
import QueryBuilder.Proofs.Splices

/-!
The kind that is told from the text of a compiled query.

Main statement: it is the kind of the query when nothing stands before the statement. Behind a `WITH`
clause it is the kind of the query when the statement closes no outermost parenthesis; when it does,
the word behind the last of them decides instead.
-/

set_option autoImplicit false

namespace QueryBuilder

namespace QueryKind

def statementKind : QueryKind → StatementKind
  | .select => .select
  | .insert => .insert
  | .update => .update
  | .delete => .delete
  | .truncate => .truncate

def opening (distinct : Bool) : QueryKind → String
  | .select => if distinct then "SELECT DISTINCT " else "SELECT "
  | .insert => "INSERT INTO "
  | .update => "UPDATE "
  | .delete => "DELETE FROM "
  | .truncate => "TRUNCATE "

theorem keyword_opens (distinct : Bool) (k : QueryKind) :
    ∃ rest, (k.opening distinct).toList = k.keyword.toList ++ rest := by
  cases k with
  | select =>
      cases distinct with
      | true => exact ⟨" DISTINCT ".toList, rfl⟩
      | false => exact ⟨" ".toList, rfl⟩
  | insert => exact ⟨" INTO ".toList, by simp [opening, keyword]⟩
  | delete => exact ⟨" FROM ".toList, by simp [opening, keyword]⟩
  | update | truncate => exact ⟨" ".toList, by simp [opening, keyword]⟩

theorem opening_plain (distinct : Bool) (k : QueryKind) :
    '?' ∉ (k.opening distinct).toList ∧ (k.opening distinct).toList.getLast? = some ' ' := by
  cases k <;> cases distinct <;> decide

end QueryKind

namespace Query

def opening (q : Query) : String :=
  q.kind.opening q.distinct

end Query

namespace StatementKind

theorem word_of_keyword (k : QueryKind) (rest : List Char) :
    ofWord? (k.keyword.toList ++ rest) = some k.statementKind := by
  cases k <;> rfl

theorem no_noise_before_keyword (k : QueryKind) (rest : List Char) :
    Text.dropNoise (k.keyword.toList ++ rest) = k.keyword.toList ++ rest := by
  cases k <;> rfl

theorem no_tables_before_keyword (k : QueryKind) (rest : List Char) :
    Text.startsWithWord "WITH".toList (k.keyword.toList ++ rest) = false := by
  cases k <;> rfl

theorem no_blank_before_keyword (k : QueryKind) (rest : List Char) :
    Text.trimStart (' ' :: (k.keyword.toList ++ rest)) = k.keyword.toList ++ rest := by
  cases k <;> rfl

theorem of_sql_opening {q : Query} {sql : String} {rest : List Char} (opens : sql.toList = q.opening.toList ++ rest) :
    ofSql sql = q.kind.statementKind := by
  obtain ⟨tail, keyword⟩ := q.kind.keyword_opens q.distinct
  rw [Query.opening, keyword, List.append_assoc] at opens
  simp only [ofSql, opens, no_noise_before_keyword, no_tables_before_keyword, word_of_keyword]
  rfl

theorem told_opening {q : Query} (writes : q.kind ≠ .truncate) (rest : List Char) :
    told (' ' :: (q.opening.toList ++ rest)) = q.kind.statementKind := by
  obtain ⟨tail, keyword⟩ := q.kind.keyword_opens q.distinct
  rw [told, Query.opening, keyword, List.append_assoc, no_blank_before_keyword, word_of_keyword]
  cases kind : q.kind with
  | truncate => exact absurd kind writes
  | select | insert | update | delete => rfl

end StatementKind

namespace Query

theorem main_of_ok {q : Query} {statement : Table → Except Error Fragment} {f : Fragment}
    (made : q.withMain statement = .ok f) : ∃ t, q.mainTable? = some t ∧ statement t = .ok f := by
  rw [withMain] at made
  cases found : q.mainTable? with
  | none =>
      rw [found] at made
      cases made
  | some t =>
      rw [found] at made
      exact ⟨t, rfl, made⟩

-- The keywords of a statement stand right behind what is written before it.
theorem keywords_first {q : Query} {f : Fragment} (made : q.toFragment = .ok f) :
    ∃ g, f = .concat (q.heading.map fun h => h.untagged ++ .literal " ") ++ (.literal q.opening ++ g) := by
  rw [toFragment_eq, statement] at made
  cases kind : q.kind with
  | select =>
      simp only [kind, selectStatement] at made
      by_cases none : q.items.isEmpty
      · rw [if_pos none] at made
        cases made
      · rw [if_neg none] at made
        obtain ⟨_, _, first, rest, rfl⟩ := clauses_cons_ok made
        cases first
        obtain ⟨_, g, second, -, rfl⟩ := clauses_cons_ok rest
        cases second
        exact ⟨g, by simp only [heading, opening, kind, leadingClause]; rfl⟩
  | insert =>
      simp only [kind] at made
      obtain ⟨t, -, written⟩ := main_of_ok made
      obtain ⟨_, h, first, -, rfl⟩ := clauses_cons_ok written
      cases first
      refine ⟨t.target ++ h, ?_⟩
      simp only [heading, opening, kind, leadingClause, append_assoc]
      rfl
  | update =>
      simp only [kind] at made
      obtain ⟨t, -, written⟩ := main_of_ok made
      by_cases none : q.data.isEmpty
      · rw [if_pos none] at written
        cases written
      · rw [if_neg none] at written
        obtain ⟨_, h, first, -, rfl⟩ := clauses_cons_ok written
        cases first
        refine ⟨t.fragment ++ (.literal " SET " ++ h), ?_⟩
        simp only [heading, opening, kind, leadingClause, append_assoc]
        rfl
  | delete =>
      simp only [kind] at made
      obtain ⟨t, -, written⟩ := main_of_ok made
      obtain ⟨_, h, first, -, rfl⟩ := clauses_cons_ok written
      cases first
      refine ⟨t.fragment ++ h, ?_⟩
      simp only [heading, opening, kind, leadingClause, append_assoc]
      rfl
  | truncate =>
      simp only [kind] at made
      obtain ⟨t, -, written⟩ := main_of_ok made
      cases written
      refine ⟨t.target ++ q.trailingClause, ?_⟩
      simp only [heading, opening, kind, append_assoc]
      exact (empty_append _).symm

theorem opening_plain (q : Query) : '?' ∉ q.opening.toList ∧ q.opening.toList.getLast? = some ' ' :=
  q.kind.opening_plain q.distinct

end Query

theorem literal_unmarked {text : String} (unmarked : '?' ∉ text.toList) : (Fragment.literal text).text = text := by
  change String.ofList (text.toList.flatMap Marker.escapeChar) = text
  rw [escape_no_marker unmarked, String.ofList_toList]

-- The keywords come out as they are written.
theorem opening_compiled {q : Query} {text : String} {vs : List Value} {pieces : List Piece}
    (expanded : expandText (q.opening ++ text) vs = some pieces) (done : Compiled) :
    ∃ tail, (done.extend pieces).sql.toList = done.sql.toList ++ (q.opening.toList ++ tail) := by
  obtain ⟨unmarked, last⟩ := q.opening_plain
  have apart : ¬ Meets q.opening.toList text.toList := by
    rintro ⟨backslash, -⟩
    rw [last] at backslash
    cases backslash
  obtain ⟨rest, -, rfl⟩ := expand_text_unmarked unmarked apart expanded
  refine ⟨(render ((done.pushText q.opening).params.length + 1) rest).toList, ?_⟩
  rw [extend_append, extend_literal]
  simp [Compiled.extend, Compiled.pushText, String.toList_append]

theorem headless_compiled {q : Query} {f : Fragment} {c : Compiled} (bare : q.heading = [])
    (made : q.toFragment = .ok f) (compiled : f.compile = .ok c) : ∃ tail, c.sql.toList = q.opening.toList ++ tail := by
  obtain ⟨g, rfl⟩ := Query.keywords_first made
  obtain ⟨pieces, expanded, rfl⟩ := number_expands.mp compiled
  have text : (Fragment.concat (q.heading.map fun h => h.untagged ++ .literal " ") ++ (.literal q.opening ++ g)).text =
      q.opening ++ g.text := by
    rw [bare, List.map_nil, Fragment.concat, empty_append]
    exact congrArg (· ++ g.text) (literal_unmarked q.opening_plain.1)
  rw [text] at expanded
  exact opening_compiled expanded .empty

-- A fragment before the statement is numbered by itself, with the parameters in front.
theorem headed_compiled {q : Query} {f h : Fragment} {c : Compiled} (headed : q.heading = [h])
    (made : q.toFragment = .ok f) (compiled : f.compile = .ok c) :
    ∃ w tail, number h.text (f.params.take (Marker.count h.text)) = .ok w ∧
      c.sql.toList = w.sql.toList ++ ' ' :: (q.opening.toList ++ tail) := by
  obtain ⟨g, rfl⟩ := Query.keywords_first made
  obtain ⟨pieces, expanded, rfl⟩ := number_expands.mp compiled
  have text : (Fragment.concat (q.heading.map fun h => h.untagged ++ .literal " ") ++ (.literal q.opening ++ g)).text =
      h.text ++ (" " ++ (q.opening ++ g.text)) := by
    have opening : (Fragment.literal q.opening).text = q.opening := literal_unmarked q.opening_plain.1
    have blank : (Fragment.literal " ").text = " " := rfl
    rw [headed]
    change h.text ++ (Fragment.literal " ").text ++ "" ++ ((Fragment.literal q.opening).text ++ g.text) = _
    rw [opening, blank, String.append_empty, String.append_assoc]
  rw [text] at expanded
  have apart : ¬ Meets h.text.toList (" " ++ (q.opening ++ g.text)).toList := by
    rintro ⟨-, marker⟩
    rw [String.toList_append] at marker
    cases marker
  obtain ⟨ps, qs, first, second, rfl⟩ := expand_text_append apart expanded
  obtain ⟨rest, behind, rfl⟩ := expand_text_unmarked (by decide) (fun meets => by cases meets.1) second
  obtain ⟨tail, written⟩ := opening_compiled behind ((Compiled.empty.extend ps).pushText " ")
  refine ⟨Compiled.empty.extend ps, tail, number_expands.mpr ⟨ps, first, rfl⟩, ?_⟩
  rw [extend_append, extend_append, extend_literal, written]
  simp [Compiled.pushText, String.toList_append]

theorem kind_told_from_text (start : Start) (actions : List Action) (d : Draft)
    (reachable : d ∈ ((Session.begin start).run actions).drafts) (c : Compiled)
    (answered : Run.answer Draft.compile d = .ok c) :
    (d.query.heading = [] → StatementKind.ofSql c.sql = d.query.kind.statementKind) ∧
    ∀ h, d.query.heading = [h] → ∃ f w s,
      d.query.toFragment = .ok f ∧ number h.text (f.params.take (Marker.count h.text)) = .ok w ∧
      c.sql.toList = w.sql.toList ++ ' ' :: s ∧
      (WithClause w.sql.toList →
        (Unclosing .outside s ∧ StatementKind.ofSql c.sql = d.query.kind.statementKind) ∨
        ∃ a b, s = a ++ ')' :: b ∧ Place.outside.after a = .inOne ∧ Unclosing .outside b ∧
          StatementKind.ofSql c.sql = .told b) := by
  rw [fresh_compile_answer d (reachable_fresh reachable), query_compile_bind] at answered
  cases made : d.query.toFragment with
  | error e =>
      rw [made] at answered
      cases answered
  | ok f =>
      rw [made] at answered
      constructor
      · intro bare
        obtain ⟨tail, opens⟩ := headless_compiled bare made answered
        exact StatementKind.of_sql_opening opens
      · intro h headed
        obtain ⟨w, tail, numbered, opens⟩ := headed_compiled headed made answered
        have writes : d.query.kind ≠ .truncate := by
          intro truncates
          rw [Query.heading, if_pos truncates] at headed
          cases headed
        refine ⟨f, w, _, rfl, numbered, opens, fun tables => ?_⟩
        refine (StatementKind.of_sql_behind_tables tables opens).imp ?_ id
        rintro ⟨unclosing, told⟩
        exact ⟨unclosing, told.trans (StatementKind.told_opening writes tail)⟩

-- No parenthesis of the statement itself is closed, and the quoted one in the table does not count.
def twoTables : Fragment :=
  ⟨"WITH a AS (SELECT ?), b AS (VALUES (')'))", [.int 1], none⟩

def purge : Draft :=
  .ofQuery { Query.ofTable .delete "t" with
    whereTree := some ⟨.and, [.leaf "id" [.int 2]]⟩
    leading := [twoTables] }

def purgeActions : List Action :=
  [.call 0 (.leading twoTables), .call 0 (.addCondition .where_ (.text "id") [.int 2])]

def purgeForm : Compiled where
  sql := "WITH a AS (SELECT $1), b AS (VALUES (')')) DELETE FROM t WHERE id = $2"
  params := [.int 1, .int 2]

theorem purge_told_from_text :
    purge ∈ ((Session.begin (.ofTable .delete "t")).run purgeActions).drafts ∧
    Run.answer Draft.compile purge = .ok purgeForm ∧ purge.query.heading = [twoTables] ∧
    StatementKind.ofSql purgeForm.sql = .delete := by
  have reachable : purge ∈ ((Session.begin (.ofTable .delete "t")).run purgeActions).drafts :=
    List.mem_singleton.mpr rfl
  have answered : Run.answer Draft.compile purge = .ok purgeForm := by
    cbv
  refine ⟨reachable, answered, rfl, ?_⟩
  obtain ⟨f, w, s, made, numbered, written, told⟩ :=
    (kind_told_from_text _ purgeActions purge reachable purgeForm answered).2 twoTables rfl
  have marked : purge.query.toFragment =
      .ok ⟨twoTables.text ++ " DELETE FROM t WHERE id = ?", [.int 1, .int 2], none⟩ := by
    cbv
  cases made.symm.trans marked
  have clause : number twoTables.text [.int 1] = .ok ⟨"WITH a AS (SELECT $1), b AS (VALUES (')'))", [.int 1]⟩ := by
    cbv
  cases numbered.symm.trans clause
  have whole : purgeForm.sql.toList =
      "WITH a AS (SELECT $1), b AS (VALUES (')'))".toList ++ ' ' :: "DELETE FROM t WHERE id = $2".toList := by
    decide
  cases List.append_cancel_left (written.symm.trans whole)
  have first : CommonTable.Formed ⟨"a".toList, "SELECT $1".toList⟩ := ⟨by decide, by decide⟩
  have second : CommonTable.Formed ⟨"b".toList, "VALUES (')')".toList⟩ := ⟨by decide, by decide⟩
  rcases told (.next (.first first) second) with ⟨-, kind⟩ | ⟨a, b, split, -⟩
  · exact kind
  · have none : ')' ∉ "DELETE FROM t WHERE id = $2".toList := by decide
    rw [split] at none
    simp at none

-- The tuple of the row is behind the last table, and nothing is behind the tuple.
def intake : Draft :=
  .ofQuery { Query.ofTable .insert "t" with
    data := [⟨"a", .int 1⟩]
    leading := [.ofText "WITH x AS (SELECT 1)"] }

def intakeForm : Compiled where
  sql := "WITH x AS (SELECT 1) INSERT INTO t(a) VALUES($1)"
  params := [.int 1]

theorem insert_told_as_select :
    ¬ ∀ (start : Start) (actions : List Action) (d : Draft),
      d ∈ ((Session.begin start).run actions).drafts → ∀ (h : Fragment) (w c : Compiled),
      d.query.leading = [h] → h.compile = .ok w → WithClause w.sql.toList →
      Run.answer Draft.compile d = .ok c → StatementKind.ofSql c.sql = d.query.kind.statementKind := by
  intro agrees
  let actions := [Action.call 0 (.leading (.ofText "WITH x AS (SELECT 1)")), .call 0 (.values [⟨"a", .int 1⟩])]
  have drafts : ((Session.begin (.ofTable .insert "t")).run actions).drafts = [intake] := by
    cbv
  have reachable : intake ∈ ((Session.begin (.ofTable .insert "t")).run actions).drafts := by
    rw [drafts]
    exact List.mem_singleton.mpr rfl
  have clause : (Fragment.ofText "WITH x AS (SELECT 1)").compile = .ok ⟨"WITH x AS (SELECT 1)", []⟩ := by
    cbv
  have answered : Run.answer Draft.compile intake = .ok intakeForm := by
    cbv
  have formed : CommonTable.Formed ⟨"x".toList, "SELECT 1".toList⟩ := ⟨by decide, by decide⟩
  have told := agrees _ actions intake reachable _ _ intakeForm rfl clause (.first formed) answered
  revert told
  decide

end QueryBuilder
