import TableAccess.Proofs.Query.Placeholders
import TableAccess.Store.Creation

/-!
# Columns in the text of a query

A connection finds a statement again by its text. The text of a query tells how many columns it
shows, whatever their names contain: outside of names, a dot stands for every column until the
tables begin. No other statement has the text of a query.
-/

namespace TableAccess

open Sql (Fragment quoted)

namespace Sql

/-- The characters of a text outside of quoted names. Every quote enters a name or leaves one. -/
def unquoted (inside : Bool) : List Char → List Char
  | [] => []
  | c :: rest =>
      if c = '"' then unquoted (!inside) rest
      else if inside then unquoted inside rest
      else c :: unquoted inside rest

theorem unquoted_doubleQuotes (inner rest : List Char) :
    unquoted true (doubleQuotes inner ++ '"' :: rest) = unquoted false rest := by
  induction inner with
  | nil => rfl
  | cons c tail ih =>
      by_cases quote : c = '"'
      · simpa [doubleQuotes, unquoted, quote] using ih
      · simpa [doubleQuotes, unquoted, quote] using ih

theorem unquoted_quoted (name : String) (rest : List Char) :
    unquoted false (quoted name ++ rest) = unquoted false rest := by
  simpa [quoted, unquoted] using unquoted_doubleQuotes name.toList rest

theorem unquoted_plain {text : List Char} (plain : '"' ∉ text) (rest : List Char) :
    unquoted false (text ++ rest) = text ++ unquoted false rest := by
  induction text with
  | nil => rfl
  | cons c tail ih =>
      obtain ⟨other, later⟩ := List.ne_and_not_mem_of_not_mem_cons plain
      simpa [unquoted, Ne.symm other] using ih later

def Fragment.bare {α : Type} : Fragment α → List Char
  | verbatim s => s.toList
  | name _ => []
  | column _ _ => ['.']
  | slot _ => ['?']

theorem unquoted_quiet {α : Type} {fragments : List (Fragment α)}
    (quiet : ∀ fragment ∈ fragments, fragment.Quiet) (rest : List Char) :
    unquoted false (fragments.flatMap Fragment.text ++ rest) =
      fragments.flatMap Fragment.bare ++ unquoted false rest := by
  induction fragments with
  | nil => rfl
  | cons first later ih =>
      obtain ⟨here, others⟩ := List.forall_mem_cons.mp quiet
      rw [List.flatMap_cons, List.flatMap_cons, List.append_assoc, List.append_assoc, ← ih others]
      cases first with
      | verbatim s => exact unquoted_plain here.1 _
      | name s => exact unquoted_quoted s _
      | column table field =>
          simp [Fragment.text, Fragment.bare, qualified, unquoted_quoted, unquoted]
      | slot bound => exact here.elim

end Sql

/-! ## What a query shows -/

/-- Text with a number of dots that does not come to the tables yet. -/
structure Sql.Lead (dots : Nat) (text : List Char) : Prop where
  before : 'F' ∉ text
  named : '*' ∉ text
  count : text.count '.' = dots

namespace Sql.Lead

variable {m n : Nat} {first second : List Char}

theorem append (one : Lead m first) (two : Lead n second) : Lead (m + n) (first ++ second) := by
  constructor
  · simp [one.before, two.before]
  · simp [one.named, two.named]
  · simp [one.count, two.count]

end Sql.Lead

theorem Projection.lead (p : Projection) : Sql.Lead 1 (p.fragments.flatMap Fragment.bare) := by
  cases p with
  | column table field => exact (⟨by decide, by decide, rfl⟩ : Sql.Lead 1 ['.'])
  | aggregate function table field label =>
      cases function <;>
        exact ⟨by simp [fragments, AggregateFunction.symbol, Fragment.bare],
          by simp [fragments, AggregateFunction.symbol, Fragment.bare], rfl⟩

theorem Projection.lead_separated (shown : List Projection) :
    Sql.Lead shown.length
      ((Fragment.separated ", " (shown.map Projection.fragments)).flatMap Fragment.bare) := by
  induction shown with
  | nil => exact ⟨nofun, nofun, rfl⟩
  | cons first rest ih =>
      cases rest with
      | nil => exact first.lead
      | cons next others =>
          have comma : Sql.Lead 0 (", ".toList) := ⟨by decide, by decide, rfl⟩
          have whole := first.lead.append (comma.append ih)
          simp only [List.map_cons, Fragment.separated, List.flatMap_append, List.flatMap_cons] at *
          rw [List.length_cons, Nat.add_comm _ 1, ← Nat.zero_add (next :: others).length]
          exact whole

namespace Select

/-- The text of a query outside of names, up to its tables. -/
theorem unquoted_sql (q : Select) : ∃ lead rest,
    Sql.unquoted false q.statement.sql.toList = 'S' :: (lead ++ 'F' :: rest) ∧
      Sql.Lead q.projections.length lead := by
  have begins : ∃ word, Sql.Lead 0 word ∧
      q.shownFragments.flatMap Fragment.bare = 'S' :: word ++
        (Fragment.separated ", " (q.projections.map Projection.fragments)).flatMap Fragment.bare := by
    unfold shownFragments
    cases q.distinct with
    | true => exact ⟨"ELECT DISTINCT ".toList, ⟨by decide, by decide, rfl⟩, rfl⟩
    | false => exact ⟨"ELECT ".toList, ⟨by decide, by decide, rfl⟩, rfl⟩
  obtain ⟨word, plain, shown⟩ := begins
  have blank : Sql.Lead 0 [' '] := ⟨by decide, by decide, rfl⟩
  have tables : ∃ clauses, q.fragments = q.shownFragments ++ .verbatim " FROM " :: clauses := by
    simp only [fragments, sourceFragments, List.append_assoc, List.cons_append]
    exact ⟨_, rfl⟩
  obtain ⟨clauses, parts⟩ := tables
  refine ⟨_, "ROM ".toList ++ Sql.unquoted false (clauses.flatMap Fragment.text), ?_,
    Nat.zero_add q.projections.length ▸
      plain.append ((Projection.lead_separated q.projections).append blank)⟩
  have text : q.statement.sql.toList = q.shownFragments.flatMap Fragment.text ++
      (" FROM ".toList ++ clauses.flatMap Fragment.text) := by
    rw [statement, Statement.ofFragments, Fragment.render, String.toList_ofList, parts,
      List.flatMap_append, List.flatMap_cons]
    rfl
  rw [text, Sql.unquoted_quiet q.quiet_shownFragments, Sql.unquoted_plain (by decide), shown]
  simp

/-- Where the tables begin, the text before has an end. -/
theorem takeWhile_lead {lead : List Char} (before : 'F' ∉ lead) (rest : List Char) :
    (lead ++ 'F' :: rest).takeWhile (· ≠ 'F') = lead := by
  have kept : ∀ c ∈ lead, decide (c ≠ 'F') = true := by
    intro c found
    rw [decide_eq_true_eq]
    rintro rfl
    exact before found
  rw [List.takeWhile_append_of_pos kept]
  simp

/-- Queries of one text show as many columns. -/
theorem length_projections_of_sql_eq {q r : Select} (same : q.statement.sql = r.statement.sql) :
    q.projections.length = r.projections.length := by
  obtain ⟨lead, rest, text, plain⟩ := q.unquoted_sql
  obtain ⟨other, tail, again, sober⟩ := r.unquoted_sql
  rw [same, again] at text
  have cut := congrArg (List.takeWhile (· ≠ 'F')) (List.cons.inj text).2
  rw [takeWhile_lead sober.before, takeWhile_lead plain.before] at cut
  rw [← plain.count, ← sober.count, cut]

/-- A query begins with its keyword. -/
theorem head?_sql (q : Select) : q.statement.sql.toList.head? = some 'S' := by
  have text : q.statement.sql.toList = q.fragments.flatMap Fragment.text :=
    String.toList_ofList
  rw [text, fragments, shownFragments]
  cases q.distinct <;> rfl

/-- The statement of all columns of a table does not name them. -/
theorem sql_ne_star (q : Select) (name : String) :
    q.statement.sql ≠ "SELECT * FROM " ++ Sql.quotedName name := by
  intro same
  obtain ⟨lead, rest, text, plain⟩ := q.unquoted_sql
  have star : Sql.unquoted false ("SELECT * FROM " ++ Sql.quotedName name).toList =
      'S' :: ("ELECT * ".toList ++ 'F' :: ("ROM ".toList ++ Sql.unquoted false (quoted name))) := by
    rw [Sql.quotedName, String.toList_append, Sql.unquoted_plain (by decide),
      String.toList_ofList (l := quoted name)]
    rfl
  rw [same, star] at text
  have cut := congrArg (List.takeWhile (· ≠ 'F')) (List.cons.inj text).2
  rw [takeWhile_lead plain.before, takeWhile_lead (by decide)] at cut
  exact plain.named (cut ▸ by decide)

end Select

end TableAccess
