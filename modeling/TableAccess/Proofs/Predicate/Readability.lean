import TableAccess.Proofs.Filter.Meaning
import TableAccess.Proofs.Predicate.NormalForm
import TableAccess.Proofs.Predicate.Placeholders
import TableAccess.Proofs.Sql.Reading

/-!
# Reading predicates back

The text of a predicate and the values that it binds determine the predicate. A condition shows
where its column ends and what is asked of it; a group shows by its parentheses where it ends,
and by what stands between its first two parts whether it is a conjunction. The exception is
what is true by its form alone: not to restrict anything and to be the constant true are written
in the same way.
-/

namespace TableAccess

open Sql (Apart Fragment apart_cons qualified qualified_append_inj)

/-! ## Questions -/

/-- The form of a question, apart from the values that are compared with. -/
inductive Test.Form where
  | isNull
  | isNotNull
  | value (op : Operator)
  | list (op : Operator)
  deriving DecidableEq

namespace Test

def form : Test → Form
  | isNull => .isNull
  | isNotNull => .isNotNull
  | value op _ => .value op
  | list op _ => .list op

namespace Form

/-- What is written behind a column, up to the elements of a list. -/
def text : Form → List Char
  | isNull => " IS NULL".toList
  | isNotNull => " IS NOT NULL".toList
  | value op => (" " ++ op.symbol ++ " ").toList ++ ['?']
  | list op => (" " ++ op.symbol ++ " (").toList

def every : List Form :=
  let operators : List Operator := [.eq, .not, .gt, .gte, .lt, .lte, .isIn, .notIn, .like]
  [.isNull, .isNotNull] ++ operators.map value ++ operators.map list

theorem mem_every (a : Form) : a ∈ every := by
  rcases a with _ | _ | op | op
  · decide
  · decide
  · cases op <;> decide
  · cases op <;> decide

/-- No form of a question is the beginning of another one. -/
theorem eq_of_isPrefix : ∀ a ∈ every, ∀ b ∈ every, a.text <+: b.text → a = b := by
  decide +kernel

theorem text_append_inj {a b : Form} {rest others : List Char}
    (same : a.text ++ rest = b.text ++ others) : a = b ∧ rest = others := by
  have forms : a = b := by
    rcases List.prefix_or_prefix_of_prefix (List.prefix_append a.text rest)
      (same ▸ List.prefix_append b.text others) with shorter | longer
    · exact eq_of_isPrefix a (mem_every a) b (mem_every b) shorter
    · exact (eq_of_isPrefix b (mem_every b) a (mem_every a) longer).symm
  subst forms
  exact ⟨rfl, List.append_cancel_left same⟩

end Form

def marks (vs : List Value) : List Char :=
  (Fragment.separated ", " (vs.map fun v => [.slot v])).flatMap Fragment.text

theorem marks_nil : marks [] = [] :=
  rfl

theorem marks_singleton (v : Value) : marks [v] = ['?'] :=
  rfl

theorem marks_cons_cons (v w : Value) (rest : List Value) :
    marks (v :: w :: rest) = '?' :: ',' :: ' ' :: marks (w :: rest) := by
  simp [marks, Fragment.separated, Fragment.text]

/-- The question marks up to a closing parenthesis tell the length of a list. -/
theorem marks_append_inj {vs ws : List Value} {rest others : List Char}
    (same : marks vs ++ ')' :: rest = marks ws ++ ')' :: others) :
    vs.length = ws.length ∧ rest = others := by
  induction vs generalizing ws with
  | nil =>
      match ws with
      | [] => exact ⟨rfl, (List.cons.inj same).2⟩
      | [w] => simp [marks_nil, marks_singleton] at same
      | w :: x :: later => simp [marks_nil, marks_cons_cons] at same
  | cons v tail ih =>
      match tail, ws with
      | [], [] => simp [marks_nil, marks_singleton] at same
      | _ :: _, [] => simp [marks_nil, marks_cons_cons] at same
      | [], [w] => simpa [marks_singleton] using same
      | [], w :: x :: later => simp [marks_singleton, marks_cons_cons] at same
      | v' :: more, [w] => simp [marks_singleton, marks_cons_cons] at same
      | v' :: more, w :: x :: later =>
          simp only [marks_cons_cons, List.cons_append, List.cons.injEq, true_and] at same
          obtain ⟨lengths, left⟩ := ih same
          exact ⟨congrArg (· + 1) lengths, left⟩

def values : Test → List Value
  | isNull => []
  | isNotNull => []
  | value _ v => [v]
  | list _ vs => vs

def text (t : Test) : List Char :=
  match t with
  | list _ vs => t.form.text ++ (marks vs ++ [')'])
  | _ => t.form.text

theorem apart_text (t : Test) (rest : List Char) : Apart (t.text ++ rest) := by
  rcases t with _ | _ | ⟨op, v⟩ | ⟨op, vs⟩
  · exact apart_cons.mpr (by decide)
  · exact apart_cons.mpr (by decide)
  · cases op <;> exact apart_cons.mpr (by decide)
  · cases op <;> exact apart_cons.mpr (by decide)

/-- A question is known by its text and its values, whatever comes after them. -/
theorem text_append_inj {t u : Test} {rest others : List Char} {later further : List Value}
    (same : t.text ++ rest = u.text ++ others) (bound : t.values ++ later = u.values ++ further) :
    t = u ∧ rest = others ∧ later = further := by
  obtain ⟨tail, whole⟩ : ∃ tail, t.text ++ rest = t.form.text ++ tail := by
    cases t <;> simp [text]
  obtain ⟨tail', whole'⟩ : ∃ tail', u.text ++ others = u.form.text ++ tail' := by
    cases u <;> simp [text]
  have forms : t.form = u.form := (Form.text_append_inj (whole ▸ whole' ▸ same)).1
  cases t with
  | isNull =>
      cases u with
      | isNull => exact ⟨rfl, List.append_cancel_left same, bound⟩
      | _ => cases forms
  | isNotNull =>
      cases u with
      | isNotNull => exact ⟨rfl, List.append_cancel_left same, bound⟩
      | _ => cases forms
  | value op v =>
      cases u with
      | value op' v' =>
          cases forms
          obtain ⟨rfl, left⟩ := List.cons.inj bound
          exact ⟨rfl, List.append_cancel_left same, left⟩
      | _ => cases forms
  | list op vs =>
      cases u with
      | list op' ws =>
          cases forms
          simp only [text, form, List.append_assoc, List.singleton_append] at same
          obtain ⟨lengths, left⟩ := marks_append_inj (List.append_cancel_left same)
          obtain ⟨rfl, others⟩ := List.append_inj bound lengths
          exact ⟨rfl, left, others⟩
      | _ => cases forms

end Test

/-! ## Conditions -/

namespace Condition

def text (c : Condition) : List Char := c.fragments.flatMap Fragment.text

theorem text_eq (c : Condition) : c.text = qualified c.table c.field ++ c.test.text := by
  unfold text fragments
  cases c.test with
  | isNull => rfl
  | isNotNull => rfl
  | value op v => rfl
  | list op vs =>
      dsimp only
      rw [List.flatMap_cons, List.flatMap_cons, List.flatMap_append]
      rfl

theorem values_eq (c : Condition) : c.values = c.test.values := by
  obtain ⟨table, field, op, operand⟩ := c
  rcases operand with v | vs
  · cases v <;> cases op <;> rfl
  · rfl

/-- The question of a condition tells its operator and its operand. -/
theorem eq_of_test_eq {c d : Condition} (tables : c.table = d.table) (fields : c.field = d.field)
    (tests : c.test = d.test) : c = d := by
  obtain ⟨table, field, op, operand⟩ := c
  obtain ⟨table', field', op', operand'⟩ := d
  obtain rfl : table = table' := tables
  obtain rfl : field = field' := fields
  have parts : op = op' ∧ operand = operand' := by
    unfold test at tests
    dsimp only at tests
    split at tests <;> split at tests <;> simp_all
  rw [parts.1, parts.2]

/-- A condition is known by its text and its values, whatever comes after them. -/
theorem text_append_inj {c d : Condition} {rest others : List Char} {later further : List Value}
    (same : c.text ++ rest = d.text ++ others)
    (bound : c.values ++ later = d.values ++ further) :
    c = d ∧ rest = others ∧ later = further := by
  rw [text_eq, text_eq, List.append_assoc, List.append_assoc] at same
  rw [values_eq, values_eq] at bound
  obtain ⟨tables, fields, left⟩ :=
    qualified_append_inj (c.test.apart_text rest) (d.test.apart_text others) same
  obtain ⟨tests, rests, values⟩ := Test.text_append_inj left bound
  exact ⟨eq_of_test_eq tables fields tests, rests, values⟩

end Condition

/-! ## Groups -/

namespace Predicate

def text (p : Predicate) : List Char := p.fragments.flatMap Fragment.text

def joinedText (separator : String) (parts : List Predicate) : List Char :=
  (Fragment.separated separator (partFragments parts)).flatMap Fragment.text

theorem joinedText_singleton (separator : String) (p : Predicate) :
    joinedText separator [p] = p.text :=
  rfl

theorem joinedText_cons_cons (separator : String) (p q : Predicate) (rest : List Predicate) :
    joinedText separator (p :: q :: rest) =
      p.text ++ (separator.toList ++ joinedText separator (q :: rest)) := by
  simp only [joinedText, partFragments, Fragment.separated, List.flatMap_append,
    List.flatMap_cons]
  rfl

def group (conjunctive : Bool) (parts : List Predicate) : Predicate :=
  if conjunctive then all parts else any parts

def between (conjunctive : Bool) : String := if conjunctive then " AND " else " OR "

theorem text_group (conjunctive : Bool) (parts : List Predicate) :
    (group conjunctive parts).text = '(' :: (joinedText (between conjunctive) parts ++ [')']) := by
  cases conjunctive with
  | true =>
      simp only [group, if_true, text, fragments, List.flatMap_cons, List.flatMap_append]
      rfl
  | false =>
      simp only [group, text, Bool.false_eq_true, if_false, fragments, List.flatMap_cons,
        List.flatMap_append]
      rfl

theorem values_group (conjunctive : Bool) (parts : List Predicate) :
    (group conjunctive parts).values = partValues parts := by
  cases conjunctive <;> rfl

theorem Solid.condition_or_group {accepted : Condition → Prop} {p : Predicate}
    (solid : Solid accepted p) : (∃ c, p = .condition c) ∨
      ∃ conjunctive parts, p = group conjunctive parts ∧ 2 ≤ parts.length ∧
        ∀ part ∈ parts, Solid accepted part := by
  cases solid with
  | @condition c _ => exact .inl ⟨c, rfl⟩
  | @all parts enough solid => exact .inr ⟨true, parts, rfl, enough, solid⟩
  | @any parts enough solid => exact .inr ⟨false, parts, rfl, enough, solid⟩

/-- A text that begins with the predicate begins with no other one, and the values tell the
rest of the predicate. -/
def Readable (p : Predicate) : Prop :=
  ∀ (q : Predicate) (rest others : List Char) (later further : List Value),
    Solid (fun _ => True) q → p.text ++ rest = q.text ++ others →
      p.values ++ later = q.values ++ further → p = q ∧ rest = others ∧ later = further

/-- The parts of a group are read one after the other, up to the closing parenthesis. -/
theorem joinedText_append_inj {conjunctive : Bool} {ps qs : List Predicate}
    {rest others : List Char} {later further : List Value} (readable : ∀ p ∈ ps, Readable p)
    (solid : ∀ q ∈ qs, Solid (fun _ => True) q) (some : ps ≠ []) (someOther : qs ≠ [])
    (same : joinedText (between conjunctive) ps ++ ')' :: rest =
      joinedText (between conjunctive) qs ++ ')' :: others)
    (bound : partValues ps ++ later = partValues qs ++ further) :
    ps = qs ∧ rest = others ∧ later = further := by
  obtain ⟨after, blank⟩ : ∃ after, (between conjunctive).toList = ' ' :: after := by
    cases conjunctive
    · exact ⟨_, rfl⟩
    · exact ⟨_, rfl⟩
  induction ps generalizing qs with
  | nil => exact absurd rfl some
  | cons p tail ih =>
      obtain ⟨q, tail', rfl⟩ := List.exists_cons_of_ne_nil someOther
      obtain ⟨first, readableTail⟩ := List.forall_mem_cons.mp readable
      obtain ⟨firstSolid, solidTail⟩ := List.forall_mem_cons.mp solid
      simp only [partValues, List.append_assoc] at bound
      rcases tail with _ | ⟨p', more⟩ <;> rcases tail' with _ | ⟨q', more'⟩
      case nil.nil =>
          obtain ⟨rfl, left, values⟩ := first q _ _ _ _ firstSolid same bound
          exact ⟨rfl, (List.cons.inj left).2, values⟩
      case nil.cons =>
          -- one group is closed where the other one goes on
          rw [joinedText_singleton, joinedText_cons_cons, List.append_assoc, blank] at same
          obtain ⟨_, left, _⟩ := first q _ _ _ _ firstSolid same bound
          exact absurd (List.cons.inj left).1 (by decide)
      case cons.nil =>
          rw [joinedText_singleton, joinedText_cons_cons, List.append_assoc, blank] at same
          obtain ⟨_, left, _⟩ := first q _ _ _ _ firstSolid same bound
          exact absurd (List.cons.inj left).1 (by decide)
      case cons.cons =>
          rw [joinedText_cons_cons, joinedText_cons_cons, List.append_assoc, List.append_assoc,
            List.append_assoc, List.append_assoc] at same
          obtain ⟨rfl, left, values⟩ := first q _ _ _ _ firstSolid same bound
          obtain ⟨tails, rests, further⟩ := ih readableTail solidTail
            (List.cons_ne_nil _ _) (List.cons_ne_nil _ _) (List.append_cancel_left left) values
          exact ⟨congrArg (p :: ·) tails, rests, further⟩

/-- Groups of different kinds, of at least two parts each, have different texts. -/
theorem joinedText_append_ne {conjunctive other : Bool} (different : conjunctive ≠ other)
    {ps qs : List Predicate} {rest others : List Char} {later further : List Value}
    (readable : ∀ p ∈ ps, Readable p) (solid : ∀ q ∈ qs, Solid (fun _ => True) q)
    (enough : 2 ≤ ps.length) (enough' : 2 ≤ qs.length)
    (bound : partValues ps ++ later = partValues qs ++ further) :
    joinedText (between conjunctive) ps ++ rest ≠ joinedText (between other) qs ++ others := by
  intro same
  match ps, qs with
  | p :: p' :: more, q :: q' :: more' =>
      rw [joinedText_cons_cons, joinedText_cons_cons, List.append_assoc, List.append_assoc,
        List.append_assoc, List.append_assoc] at same
      simp only [partValues, List.append_assoc] at bound
      obtain ⟨_, left, _⟩ := readable p List.mem_cons_self q _ _ _ _
        (solid q List.mem_cons_self) same bound
      -- behind the first parts the separators differ in their second character
      cases conjunctive <;> cases other <;> simp [between] at different left

theorem head_text_condition (c : Condition) (rest : List Char) :
    ((condition c).text ++ rest).head? = some '"' := by
  have same : (condition c).text = c.text := rfl
  rw [same, Condition.text_eq]
  rfl

/-- A condition begins with a quote and a group with a parenthesis. -/
theorem text_condition_ne_text_group {c : Condition} {conjunctive : Bool} {parts : List Predicate}
    {rest others : List Char} :
    (condition c).text ++ rest ≠ (group conjunctive parts).text ++ others := by
  intro same
  have head := head_text_condition c rest
  rw [same, text_group] at head
  exact absurd head (by simp)

/-- A group is read back if its parts are. -/
theorem readable_group (conjunctive : Bool) {ps : List Predicate} (enough : 2 ≤ ps.length)
    (readable : ∀ p ∈ ps, Readable p) : Readable (group conjunctive ps) := by
  have nonempty {list : List Predicate} (enough : 2 ≤ list.length) : list ≠ [] :=
    List.ne_nil_of_length_pos (Nat.lt_of_lt_of_le Nat.two_pos enough)
  intro q rest others later further solid same bound
  rcases solid.condition_or_group with ⟨c, rfl⟩ | ⟨other, qs, rfl, enough', solid'⟩
  · exact absurd same.symm text_condition_ne_text_group
  · rw [values_group, values_group] at bound
    rw [text_group, text_group] at same
    simp only [List.cons_append, List.cons.injEq, true_and, List.append_assoc,
      List.nil_append] at same
    by_cases kinds : conjunctive = other
    · subst kinds
      obtain ⟨parts, left⟩ := joinedText_append_inj readable solid' (nonempty enough)
        (nonempty enough') same bound
      exact ⟨congrArg (group conjunctive) parts, left⟩
    · exact absurd same (joinedText_append_ne kinds readable solid' enough enough' bound)

/-- A predicate without constants is read back from its text and its values. -/
theorem Solid.readable {p : Predicate} (solid : Solid (fun _ => True) p) : Readable p := by
  induction solid with
  | @condition c _ =>
      intro q rest others later further other same bound
      rcases other.condition_or_group with ⟨d, rfl⟩ | ⟨conjunctive, parts, rfl, _, _⟩
      · obtain ⟨conditions, left⟩ := Condition.text_append_inj same bound
        exact ⟨congrArg Predicate.condition conditions, left⟩
      · exact absurd same text_condition_ne_text_group
  | all enough _ ih => exact readable_group true enough ih
  | any enough _ ih => exact readable_group false enough ih

/-- A predicate without constants does not begin like a constant. -/
theorem Solid.head_text {p : Predicate} (solid : Solid (fun _ => True) p) :
    p.text.head? ≠ some '1' := by
  rcases solid.condition_or_group with ⟨c, rfl⟩ | ⟨conjunctive, parts, rfl, _, _⟩
  · have head := head_text_condition c []
    rw [List.append_nil] at head
    rw [head]
    decide
  · rw [text_group]
    simp

theorem text_eq_of_sql_eq {p q : Predicate} (same : p.sql = q.sql) : p.text = q.text := by
  have texts := congrArg String.toList same
  rwa [sql, sql, Fragment.render, Fragment.render, String.toList_ofList,
    String.toList_ofList] at texts

theorem const_eq_of_sql_eq {first second : Bool} (same : (const first).sql = (const second).sql) :
    first = second := by
  cases first <;> cases second
  · rfl
  · exact absurd same (by decide)
  · exact absurd same (by decide)
  · rfl

/-- Compiled predicates have the same text and the same values exactly if they are the same,
except that no restriction and the constant true are written alike. -/
theorem sql_and_params_eq_iff {t u : Table} {f g : Filter} {p q : Predicate}
    (compiled : t.compile f = .ok p) (compiledOther : u.compile g = .ok q) :
    (p.sql = q.sql ∧ p.params = q.params) ↔
      p = q ∨ (p = .unrestricted ∧ q = .const true) ∨ (p = .const true ∧ q = .unrestricted) := by
  have normal : p.Normal fun _ => True := normal_of_compile (fun _ _ _ _ => trivial) compiled
  have normalOther : q.Normal fun _ => True :=
    normal_of_compile (fun _ _ _ _ => trivial) compiledOther
  have alike : unrestricted.sql = (const true).sql := rfl
  constructor
  · rintro ⟨same, bound⟩
    have texts := text_eq_of_sql_eq same
    rw [params_eq_values, params_eq_values] at bound
    cases normal with
    | unrestricted =>
        cases normalOther with
        | unrestricted => exact .inl rfl
        | const outcome =>
            have outcomes := const_eq_of_sql_eq (alike.symm.trans same)
            subst outcomes
            exact .inr (.inl ⟨rfl, rfl⟩)
        | solid solid =>
            have one : unrestricted.text.head? = some '1' := rfl
            exact absurd (texts ▸ one) solid.head_text
    | const outcome =>
        have one : (const outcome).text.head? = some '1' := by cases outcome <;> rfl
        cases normalOther with
        | unrestricted =>
            have outcomes := const_eq_of_sql_eq (same.trans alike)
            subst outcomes
            exact .inr (.inr ⟨rfl, rfl⟩)
        | const other => exact .inl (congrArg const (const_eq_of_sql_eq same))
        | solid solid => exact absurd (texts ▸ one) solid.head_text
    | solid solid =>
        cases normalOther with
        | unrestricted =>
            have one : unrestricted.text.head? = some '1' := rfl
            exact absurd (texts ▸ one) solid.head_text
        | const outcome =>
            have one : (const outcome).text.head? = some '1' := by cases outcome <;> rfl
            exact absurd (texts ▸ one) solid.head_text
        | solid other =>
            have whole : p.text ++ [] = q.text ++ [] := by rw [texts]
            have values : p.values ++ [] = q.values ++ [] := by rw [bound]
            exact .inl (solid.readable q [] [] [] [] other whole values).1
  · rintro (rfl | ⟨rfl, rfl⟩ | ⟨rfl, rfl⟩)
    · exact ⟨rfl, rfl⟩
    · exact ⟨alike, rfl⟩
    · exact ⟨alike.symm, rfl⟩

/-! ## Two nested filters -/

/-- The conditions of the nested filter, but with the price outside of its group. -/
def flattenedFilter : Filter :=
  .entries
    [("status__not", .scalar .null),
      ("or__", .group [.entries [("id", .scalar (.int 2)), ("price", .scalar .null)]])]

def flattenedPredicate : Predicate :=
  .all
    [.condition ⟨"items", "status", .not, .value .null⟩,
      .all
        [.condition ⟨"items", "id", .eq, .value (.int 2)⟩,
          .condition ⟨"items", "price", .eq, .value .null⟩]]

theorem sql_and_params_eq_iff_nestedFilter :
    items.compile nestedFilter = .ok nestedPredicate ∧
      items.compile flattenedFilter = .ok flattenedPredicate ∧
      nestedPredicate.params = flattenedPredicate.params ∧
      nestedPredicate.sql ≠ flattenedPredicate.sql := by
  have nested : items.compile nestedFilter = .ok nestedPredicate := rfl
  have flattened : items.compile flattenedFilter = .ok flattenedPredicate := rfl
  have bound : nestedPredicate.params = flattenedPredicate.params := rfl
  refine ⟨nested, flattened, bound, fun same => ?_⟩
  rcases (sql_and_params_eq_iff nested flattened).mp ⟨same, bound⟩ with
    equal | ⟨equal, _⟩ | ⟨equal, _⟩
  · simp [nestedPredicate, flattenedPredicate] at equal
  · cases equal
  · cases equal

end Predicate

end TableAccess
