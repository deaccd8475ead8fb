import QueryBuilder.Monitor.Kind

/-!
What the scan for the kind of a statement finds behind common table expressions.

Main statement: behind a `WITH` clause the scan goes on as if the statement stood alone. It stops right
behind the clause when the statement closes no outermost parenthesis, and behind the last one that it
closes otherwise; the word there is told.
-/

set_option autoImplicit false

namespace QueryBuilder

-- Where a text stands: between single quotes or not, and how many parentheses are open.
structure Place where
  quoted : Bool
  depth : Int
deriving DecidableEq

namespace Place

def outside : Place := ⟨false, 0⟩

-- Inside the outermost parentheses, and no others.
def inOne : Place := ⟨false, 1⟩

def step (p : Place) (c : Char) : Place :=
  if c = '\'' then ⟨!p.quoted, p.depth⟩
  else if p.quoted then p
  else if c = '(' then ⟨false, p.depth + 1⟩
  else if c = ')' then ⟨false, p.depth - 1⟩
  else p

def after (p : Place) (text : List Char) : Place :=
  text.foldl step p

end Place

-- What is opened in the text is closed in it.
def Closed (text : List Char) : Prop :=
  Place.outside.after text = .outside

instance (text : List Char) : Decidable (Closed text) :=
  inferInstanceAs (Decidable (Place.outside.after text = .outside))

-- No parenthesis of the text closes an outermost one.
def Unclosing (p : Place) (text : List Char) : Prop :=
  ∀ a b, text = a ++ ')' :: b → p.after a ≠ .inOne

-- A common table expression, `name AS (body)`.
structure CommonTable where
  name : List Char
  body : List Char

namespace CommonTable

def text (t : CommonTable) : List Char :=
  t.name ++ " AS (".toList ++ t.body ++ [')']

structure Formed (t : CommonTable) : Prop where
  name : Closed t.name
  body : Closed t.body

end CommonTable

inductive WithClause : List Char → Prop
  | first {t : CommonTable} : t.Formed → WithClause ("WITH ".toList ++ t.text)
  | next {text : List Char} {t : CommonTable} : WithClause text → t.Formed → WithClause (text ++ ", ".toList ++ t.text)

-- The kind that a word behind a parenthesis stands for.
def StatementKind.told (text : List Char) : StatementKind :=
  match ofWord? (Text.trimStart text) with
  | none | some .truncate => .select
  | some kind => kind

namespace Place

theorem after_append (p : Place) (a b : List Char) : p.after (a ++ b) = (p.after a).after b :=
  List.foldl_append

-- The step is the same at every depth.
theorem step_shift (p : Place) (n : Int) (c : Char) :
    step ⟨p.quoted, p.depth + n⟩ c = ⟨(p.step c).quoted, (p.step c).depth + n⟩ := by
  by_cases quote : c = '\''
  · simp [step, quote]
  · cases p with
    | mk quoted depth =>
        cases quoted with
        | true => simp [step, quote]
        | false =>
            by_cases opens : c = '('
            · simp [step, opens]
              omega
            · by_cases closes : c = ')'
              · simp [step, closes]
                omega
              · simp [step, quote, opens, closes]

theorem after_shift (p : Place) (n : Int) (text : List Char) :
    after ⟨p.quoted, p.depth + n⟩ text = ⟨(p.after text).quoted, (p.after text).depth + n⟩ := by
  induction text generalizing p with
  | nil => rfl
  | cons c rest ih => exact (congrArg (fun q => after q rest) (p.step_shift n c)).trans (ih (p.step c))

end Place

theorem closed_inside {text : List Char} (closed : Closed text) : Place.inOne.after text = .inOne := by
  have shifted := Place.after_shift .outside 1 text
  rw [closed] at shifted
  exact shifted

theorem table_text_place {t : CommonTable} (formed : t.Formed) :
    ∃ before, t.text = before ++ [')'] ∧ Place.outside.after before = .inOne := by
  refine ⟨t.name ++ " AS (".toList ++ t.body, rfl, ?_⟩
  have opened : Place.outside.after " AS (".toList = .inOne := by decide
  rw [Place.after_append, Place.after_append, formed.name, opened]
  exact closed_inside formed.body

-- A clause ends with a parenthesis that closes an outermost one.
theorem with_clause_place {text : List Char} (clause : WithClause text) :
    ∃ before, text = before ++ [')'] ∧ Place.outside.after before = .inOne := by
  induction clause with
  | @first t formed =>
      obtain ⟨before, ends, place⟩ := table_text_place formed
      refine ⟨"WITH ".toList ++ before, by rw [ends, List.append_assoc], ?_⟩
      rw [Place.after_append]
      exact place
  | @next text t clause formed ih =>
      obtain ⟨inner, closing, closes⟩ := ih
      obtain ⟨before, ends, place⟩ := table_text_place formed
      refine ⟨text ++ ", ".toList ++ before, by rw [ends, List.append_assoc (text ++ ", ".toList)], ?_⟩
      have closed : Place.outside.after text = .outside := by
        rw [closing, Place.after_append, closes]
        rfl
      rw [Place.after_append, Place.after_append, closed]
      exact place

theorem with_clause_opens {text : List Char} (clause : WithClause text) : ∃ rest, text = "WITH ".toList ++ rest := by
  induction clause with
  | first => exact ⟨_, rfl⟩
  | next clause formed ih =>
      obtain ⟨rest, rfl⟩ := ih
      exact ⟨_, by rw [List.append_assoc, List.append_assoc]⟩

theorem unclosing_cons {p : Place} {c : Char} {rest : List Char} (apart : c = ')' → p ≠ .inOne)
    (later : Unclosing (p.step c) rest) : Unclosing p (c :: rest) := by
  intro a b split
  cases a with
  | nil =>
      cases split
      exact apart rfl
  | cons d tail =>
      cases split
      exact later tail b rfl

theorem unclosing_tail {p : Place} {c : Char} {rest : List Char} (unclosing : Unclosing p (c :: rest)) :
    (c = ')' → p ≠ .inOne) ∧ Unclosing (p.step c) rest := by
  refine ⟨fun closes => ?_, fun a b split => ?_⟩
  · exact unclosing [] rest (by rw [closes]; rfl)
  · exact unclosing (c :: a) b (by rw [split]; rfl)

-- Either no parenthesis closes an outermost one, or one of those that do is the last.
theorem last_closing (p : Place) (text : List Char) :
    Unclosing p text ∨ ∃ a b, text = a ++ ')' :: b ∧ p.after a = .inOne ∧ Unclosing .outside b := by
  induction text generalizing p with
  | nil => exact .inl fun a b split => by simp at split
  | cons c rest ih =>
      rcases ih (p.step c) with none | ⟨a, b, split, place, last⟩
      · by_cases closing : c = ')' ∧ p = .inOne
        · obtain ⟨rfl, rfl⟩ := closing
          exact .inr ⟨[], rest, rfl, rfl, none⟩
        · exact .inl (unclosing_cons (fun closes here => closing ⟨closes, here⟩) none)
      · exact .inr ⟨c :: a, b, by rw [split]; rfl, place, last⟩

namespace StatementKind

-- A quote that is written twice ends a literal and begins it again.
theorem behind_quote (quoted : Bool) (depth : Int) (last rest : List Char) :
    behindTables quoted depth last ('\'' :: rest) = behindTables (!quoted) depth last rest := by
  by_cases twice : quoted = true ∧ rest.head? = some '\''
  · obtain ⟨rfl, again⟩ := twice
    cases rest with
    | nil => cases again
    | cons c tail =>
        cases again
        rw [behindTables, Bool.not_true, behindTables]
        · rfl
        · simp
  · rw [behindTables]
    intro tail inside next
    exact twice ⟨inside, by rw [next]; rfl⟩

-- One step of the scan: it goes where the place goes, and remembers what is behind an outermost parenthesis.
theorem behind_cons (p : Place) (last : List Char) (c : Char) (rest : List Char) :
    behindTables p.quoted p.depth last (c :: rest) =
      behindTables (p.step c).quoted (p.step c).depth (if c = ')' ∧ p = .inOne then rest else last) rest := by
  obtain ⟨quoted, depth⟩ := p
  by_cases quote : c = '\''
  · subst quote
    simpa [Place.step] using behind_quote quoted depth last rest
  · cases quoted with
    | true =>
        have inside : (⟨true, depth⟩ : Place) ≠ .inOne := by simp [Place.inOne]
        rw [behindTables]
        · simp [Place.step, quote, inside]
        · exact fun _ isQuote => absurd isQuote quote
        · exact quote
    | false =>
        by_cases opens : c = '('
        · subst opens
          simp [behindTables, Place.step]
        · by_cases closes : c = ')'
          · subst closes
            simp [behindTables, Place.step, Place.inOne]
          · rw [behindTables]
            · simp [Place.step, quote, opens, closes]
            · exact quote
            · exact opens
            · exact closes

theorem behind_unclosing {p : Place} {text : List Char} (unclosing : Unclosing p text) (last : List Char) :
    behindTables p.quoted p.depth last text = last := by
  induction text generalizing p with
  | nil => rw [behindTables]
  | cons c rest ih =>
      obtain ⟨apart, later⟩ := unclosing_tail unclosing
      have same : ¬ (c = ')' ∧ p = .inOne) := fun closing => apart closing.1 closing.2
      rw [behind_cons, if_neg same, ih later]

theorem behind_last {p : Place} {a b : List Char} (place : p.after a = .inOne) (unclosing : Unclosing .outside b)
    (last : List Char) : behindTables p.quoted p.depth last (a ++ ')' :: b) = b := by
  induction a generalizing p last with
  | nil =>
      cases place
      rw [List.nil_append, behind_cons, if_pos ⟨rfl, rfl⟩]
      exact behind_unclosing unclosing b
  | cons c rest ih =>
      rw [List.cons_append, behind_cons]
      exact ih place _

theorem of_tables_told {a b : List Char} (place : Place.outside.after a = .inOne) (unclosing : Unclosing .outside b) :
    ofTables (a ++ ')' :: b) = told b := by
  have behind := behind_last place unclosing (a ++ ')' :: b)
  rw [show ofTables (a ++ ')' :: b) = told (behindTables false 0 (a ++ ')' :: b) (a ++ ')' :: b)) from rfl]
  exact congrArg told behind

theorem of_sql_tables {sql : String} {rest : List Char} (opens : sql.toList = "WITH ".toList ++ rest) :
    ofSql sql = ofTables sql.toList := by
  rw [ofSql, opens]
  rfl

theorem of_sql_behind_tables {sql : String} {clause s : List Char} (tables : WithClause clause)
    (opens : sql.toList = clause ++ ' ' :: s) :
    (Unclosing .outside s ∧ ofSql sql = told (' ' :: s)) ∨
    ∃ a b, s = a ++ ')' :: b ∧ Place.outside.after a = .inOne ∧ Unclosing .outside b ∧ ofSql sql = told b := by
  obtain ⟨rest, begins⟩ := with_clause_opens tables
  obtain ⟨before, ends, inside⟩ := with_clause_place tables
  have withFirst : sql.toList = "WITH ".toList ++ (rest ++ ' ' :: s) := by
    rw [opens, begins, List.append_assoc]
  rw [of_sql_tables withFirst, opens]
  rcases last_closing .outside s with unclosing | ⟨a, b, rfl, place, last⟩
  · have apart : Unclosing .outside (' ' :: s) := unclosing_cons (fun closes => by cases closes) unclosing
    rw [ends, List.append_assoc, List.singleton_append]
    exact .inl ⟨unclosing, of_tables_told inside apart⟩
  · have outermost : Place.outside.after (clause ++ ' ' :: a) = .inOne := by
      rw [ends, Place.after_append, Place.after_append, inside]
      exact place
    rw [← List.cons_append, ← List.append_assoc]
    exact .inr ⟨a, b, rfl, place, last, of_tables_told outermost last⟩

end StatementKind

end QueryBuilder
