import TableAccess.Proofs.Filter.Key
import TableAccess.Proofs.Mutation.Compilation

/-!
# Where keys are split

A key that is no column is to be read as the longest column that stands in front of a delimiter.
The search looks only at delimiters that do not overlap, counted from the end of the key, which
are those with an even number of underscores behind them. So it departs from the rule exactly where
the rule would leave a rest that begins with an odd number of underscores. No suffix begins so, and
hence the two differ in how a key is refused, but never in what is accepted.
-/

namespace TableAccess

def leadingUnderscores (text : List Char) : Nat := (text.takeWhile (· == '_')).length

/-- A pair of underscores at the end does not change whether their number is even. -/
theorem leadingUnderscores_pair (text : List Char) :
    leadingUnderscores (text ++ ['_', '_']) % 2 = leadingUnderscores text % 2 := by
  unfold leadingUnderscores
  rw [List.takeWhile_append]
  split
  · rename_i full
    have two : (['_', '_'].takeWhile (· == '_')).length = 2 := by rfl
    rw [List.length_append, two]
    omega
  · rfl

/-- One character at the end is not counted, unless it is the last one of nothing but
underscores. -/
theorem leadingUnderscores_singleton {text : List Char} {c : Char}
    (other : c = '_' → text ≠ [] ∧ text.getLast? ≠ some '_') :
    leadingUnderscores (text ++ [c]) = leadingUnderscores text := by
  unfold leadingUnderscores
  rw [List.takeWhile_append]
  split
  · rename_i full
    have whole : text.takeWhile (· == '_') = text := (List.takeWhile_prefix _).eq_of_length full
    have plain : c ≠ '_' := by
      intro underscore
      obtain ⟨filled, last⟩ := other underscore
      have all : ∀ d ∈ text, (d == '_') = true := by
        have seen := List.all_takeWhile (p := (· == '_')) (l := text)
        rw [whole] at seen
        exact List.all_eq_true.mp seen
      apply last
      rw [List.getLast?_eq_some_getLast filled]
      exact congrArg some (beq_iff_eq.mp (all _ (List.getLast_mem filled)))
    rw [List.takeWhile_cons_of_neg (by simpa using plain), List.append_nil, whole]
  · rfl

/-- The last character of a rest that does not end in a pair of underscores is none of those that
the rest begins with. -/
theorem leadingUnderscores_passed {c : Char} {behind after : List Char}
    (single : ∀ rest, c = '_' → behind ++ '_' :: '_' :: after = '_' :: rest → False) :
    leadingUnderscores (behind.reverse ++ [c]) = leadingUnderscores behind.reverse := by
  apply leadingUnderscores_singleton
  rintro rfl
  cases behind with
  | nil => exact (single _ rfl rfl).elim
  | cons last behind =>
      have differs : last ≠ '_' := fun underscore =>
        single _ rfl (by rw [underscore, List.cons_append])
      simpa using differs

/-- A text is split at those delimiters with an even number of underscores behind them. -/
theorem mem_splitsBack_iff {searched passed field rest : List Char} :
    (field, rest) ∈ splitsBack searched passed ↔
      ∃ behind, searched = behind ++ '_' :: '_' :: field.reverse ∧ rest = behind.reverse ++ passed ∧
        leadingUnderscores behind.reverse % 2 = 0 := by
  induction searched, passed using splitsBack.induct generalizing field rest with
  | case1 before after ih =>
      rw [splitsBack, List.mem_cons, ih]
      constructor
      · rintro (here | ⟨behind, rfl, rfl, even⟩)
        · cases here
          exact ⟨[], by simp, rfl, rfl⟩
        · refine ⟨'_' :: '_' :: behind, rfl, by simp, ?_⟩
          simpa [leadingUnderscores_pair] using even
      · rintro ⟨behind, whole, rfl, even⟩
        cases behind with
        | nil =>
            left
            obtain rfl : before = field.reverse := by simpa using whole
            simp
        | cons last behind =>
            cases behind with
            | nil =>
                -- A single underscore behind the delimiter belongs to the pair that is found first.
                cases whole
                cases even
            | cons next behind =>
                cases whole
                right
                rw [List.reverse_cons, List.reverse_cons, List.append_assoc] at even
                exact ⟨behind, rfl, by simp, (leadingUnderscores_pair _).symm.trans even⟩
  | case2 c before after other ih =>
      have same {behind : List Char} (whole : before = behind ++ '_' :: '_' :: field.reverse) :
          leadingUnderscores (behind.reverse ++ [c]) = leadingUnderscores behind.reverse :=
        leadingUnderscores_passed (whole ▸ other)
      rw [splitsBack, ih]
      · constructor
        · rintro ⟨behind, whole, rfl, even⟩
          refine ⟨c :: behind, by rw [whole, List.cons_append], by simp, ?_⟩
          rw [List.reverse_cons, same whole, even]
        · rintro ⟨behind, whole, rfl, even⟩
          cases behind with
          | nil =>
              cases whole
              exact (other _ rfl rfl).elim
          | cons last behind =>
              cases whole
              rw [List.reverse_cons, same rfl] at even
              exact ⟨behind, rfl, by simp, even⟩
      · exact other
  | case3 => simp [splitsBack]

/-- The ways to split a text begin with the longest field. -/
theorem pairwise_splitsBack (searched passed : List Char) :
    (splitsBack searched passed).Pairwise fun a b => b.1.length < a.1.length := by
  induction searched, passed using splitsBack.induct with
  | case1 before after ih =>
      rw [splitsBack, List.pairwise_cons]
      refine ⟨?_, ih⟩
      rintro ⟨field, rest⟩ later
      obtain ⟨behind, whole, _⟩ := mem_splitsBack_iff.mp later
      have lengths := congrArg List.length whole
      simp only [List.length_append, List.length_cons, List.length_reverse] at lengths ⊢
      omega
  | case2 c before after other ih =>
      rw [splitsBack]
      · exact ih
      · exact other
  | case3 =>
      rw [splitsBack]
      exact .nil

/-- A rest begins with an even number of underscores. -/
def EvenlyLed (rest : String) : Prop := leadingUnderscores rest.toList % 2 = 0

instance (rest : String) : Decidable (EvenlyLed rest) :=
  inferInstanceAs (Decidable (leadingUnderscores rest.toList % 2 = 0))

theorem mem_keySplits_iff {key field rest : String} :
    (field, rest) ∈ keySplits key ↔ key = field ++ "__" ++ rest ∧ EvenlyLed rest := by
  constructor
  · intro listed
    refine ⟨eq_append_of_mem_keySplits listed, ?_⟩
    obtain ⟨⟨front, back⟩, found, same⟩ := List.mem_map.mp listed
    cases same
    obtain ⟨behind, _, rfl, even⟩ := mem_splitsBack_iff.mp found
    simpa [EvenlyLed] using even
  · rintro ⟨rfl, even⟩
    have found : (field.toList, rest.toList) ∈
        splitsBack (field ++ "__" ++ rest).toList.reverse [] := by
      apply mem_splitsBack_iff.mpr
      exact ⟨rest.toList.reverse, by simp, by simp, by simpa [EvenlyLed] using even⟩
    exact List.mem_map.mpr ⟨_, found, by simp⟩

theorem pairwise_keySplits (key : String) :
    (keySplits key).Pairwise fun a b => b.1.length < a.1.length := by
  unfold keySplits
  rw [List.pairwise_map]
  apply (pairwise_splitsBack _ _).imp
  intro a b shorter
  simpa using shorter

/-- A rest that is oddly led holds an underscore. -/
theorem underscore_mem_of_not_evenlyLed {rest : String} (odd : ¬ EvenlyLed rest) :
    '_' ∈ rest.toList := by
  apply Classical.byContradiction
  intro none
  apply odd
  have unled : rest.toList.takeWhile (· == '_') = [] := by
    cases listed : rest.toList with
    | nil => rfl
    | cons c later =>
        rw [List.takeWhile_cons_of_neg]
        rintro underscore
        exact none (by rw [listed, ← beq_iff_eq.mp underscore]; exact List.mem_cons_self)
  rw [EvenlyLed, leadingUnderscores, unled]
  rfl

namespace Table

variable {t : Table} {allowed : String → Prop} {key field rest : String}

/-- A key offers a column of the table with a rest: it is the column, the delimiter and the
rest. -/
structure Offers (t : Table) (key field rest : String) : Prop where
  whole : key = field ++ "__" ++ rest
  known : t.hasColumn field = true

/-- The longest column that a key offers, among those with a rest that is allowed. -/
structure OffersLongest (t : Table) (allowed : String → Prop) (key field rest : String) :
    Prop where
  offered : t.Offers key field rest
  allows : allowed rest
  longest : ∀ other later, t.Offers key other later → allowed later → other.length ≤ field.length

/-- The answers of the rule of the longest column, when some rests are allowed: a key that is a
column is that column, any other key is the longest column that it offers, and a key that offers
none is unknown. -/
inductive Chooses (t : Table) (allowed : String → Prop) (key : String) :
    Except Error (String × Option String) → Prop where
  | column (known : t.hasColumn key = true) : Chooses t allowed key (.ok (key, none))
  | longest {field rest : String} (unnamed : t.hasColumn key = false)
      (offers : t.OffersLongest allowed key field rest) :
      Chooses t allowed key (.ok (field, some rest))
  | unknown (unnamed : t.hasColumn key = false)
      (nothing : ∀ field rest, t.Offers key field rest → ¬ allowed rest) :
      Chooses t allowed key (.error (.unknownColumn t.name key))

/-- Of two offers of the same length neither differs from the other. -/
theorem Offers.eq {other later : String} (first : t.Offers key field rest)
    (second : t.Offers key other later) (same : field.length = other.length) :
    field = other ∧ rest = later := by
  have texts := congrArg String.toList (first.whole.symm.trans second.whole)
  simp only [String.toList_append] at texts
  rw [List.append_assoc, List.append_assoc] at texts
  obtain ⟨front, back⟩ := List.append_inj texts (by simpa [String.length_toList] using same)
  exact ⟨String.toList_injective front, String.toList_injective (List.append_cancel_left back)⟩

theorem exists_offersLongest (offered : t.Offers key field rest) (allows : allowed rest) :
    ∃ field rest, t.OffersLongest allowed key field rest := by
  induction gap : key.length - field.length using Nat.strongRecOn generalizing field rest with
  | ind gap ih =>
      by_cases longest : ∀ other later, t.Offers key other later → allowed later →
          other.length ≤ field.length
      · exact ⟨field, rest, offered, allows, longest⟩
      · simp only [Classical.not_forall, Nat.not_le] at longest
        obtain ⟨other, later, offers, allowed, longer⟩ := longest
        have within : other.length ≤ key.length := by
          rw [offers.whole, String.length_append, String.length_append]
          omega
        exact ih _ (by omega) offers allowed rfl

/-- The rule answers every key. -/
theorem exists_chooses (t : Table) (allowed : String → Prop) (key : String) :
    ∃ answer, t.Chooses allowed key answer := by
  cases named : t.hasColumn key with
  | true => exact ⟨_, .column named⟩
  | false =>
      by_cases offering : ∃ field rest, t.Offers key field rest ∧ allowed rest
      · obtain ⟨field, rest, offered, allows⟩ := offering
        obtain ⟨_, _, offers⟩ := exists_offersLongest offered allows
        exact ⟨_, .longest named offers⟩
      · refine ⟨_, .unknown named fun field rest offered allows => ?_⟩
        exact offering ⟨field, rest, offered, allows⟩

/-- The rule gives no key two answers. -/
theorem Chooses.unique {first second : Except Error (String × Option String)}
    (left : t.Chooses allowed key first) (right : t.Chooses allowed key second) :
    first = second := by
  cases left with
  | column known =>
      cases right with
      | column => rfl
      | longest unnamed | unknown unnamed => cases unnamed.symm.trans known
  | longest unnamed offers =>
      cases right with
      | column known => cases unnamed.symm.trans known
      | longest _ others =>
          have same := Nat.le_antisymm (others.longest _ _ offers.offered offers.allows)
            (offers.longest _ _ others.offered others.allows)
          obtain ⟨rfl, rfl⟩ := offers.offered.eq others.offered same
          rfl
      | unknown _ nothing => exact (nothing _ _ offers.offered offers.allows).elim
  | unknown unnamed nothing =>
      cases right with
      | column known => cases unnamed.symm.trans known
      | longest _ others => exact (nothing _ _ others.offered others.allows).elim
      | unknown => rfl

/-- The search follows the rule among the rests that are evenly led. -/
theorem chooses_splitKey (t : Table) (key : String) : t.Chooses EvenlyLed key (t.splitKey key) := by
  unfold splitKey
  cases named : t.hasColumn key with
  | true => exact .column named
  | false =>
      rw [if_neg Bool.false_ne_true]
      split
      · rename_i field rest found
        obtain ⟨known, before, after, whole, others⟩ := List.find?_eq_some_iff_append.mp found
        have listed : (field, rest) ∈ keySplits key := List.mem_of_find?_eq_some found
        obtain ⟨split, even⟩ := mem_keySplits_iff.mp listed
        refine .longest named ⟨⟨split, known⟩, even, fun other later offers led => ?_⟩
        have member := mem_keySplits_iff.mpr ⟨offers.whole, led⟩
        have ordered := pairwise_keySplits key
        rw [whole] at member ordered
        rcases List.mem_append.mp member with earlier | member
        · have missed := others _ earlier
          rw [offers.known] at missed
          cases missed
        · rcases List.mem_cons.mp member with same | behind
          · cases same
            exact Nat.le_refl _
          · have sorted := (List.pairwise_append.mp ordered).2.1
            exact Nat.le_of_lt ((List.pairwise_cons.mp sorted).1 _ behind)
      · rename_i missing
        refine .unknown named fun field rest offers led => ?_
        have missed := List.find?_eq_none.mp missing _ (mem_keySplits_iff.mpr ⟨offers.whole, led⟩)
        exact missed offers.known

/-! ## Where search and rule differ -/

/-- What holds an underscore is no suffix. -/
theorem no_suffix_of_underscore_mem (underscore : '_' ∈ rest.toList) :
    Operator.ofSuffix? rest = none ∧ rest ≠ incrementSuffix := by
  constructor
  · apply Option.eq_none_iff_forall_ne_some.mpr
    intro op read
    have plain := Operator.underscore_notMem_suffix (Operator.ofSuffix?_eq_some_iff.mp read)
    exact plain.1 underscore
  · rintro rfl
    revert underscore
    decide

theorem Chooses.evenlyLed {ruled : Except Error (String × Option String)}
    (chosen : t.Chooses (fun _ => True) key ruled)
    (even : ∀ field rest, ruled = .ok (field, some rest) → EvenlyLed rest) :
    t.Chooses EvenlyLed key ruled := by
  cases chosen with
  | column known => exact .column known
  | longest unnamed offers =>
      refine .longest unnamed ⟨offers.offered, even _ _ rfl, fun other later offered _ => ?_⟩
      exact offers.longest other later offered trivial
  | unknown unnamed nothing =>
      exact .unknown unnamed fun field rest offered _ => nothing field rest offered trivial

/-- The search has the answer of the rule unless the rule leaves a rest that is oddly led. -/
theorem splitKey_eq_iff {ruled : Except Error (String × Option String)}
    (chosen : t.Chooses (fun _ => True) key ruled) :
    t.splitKey key = ruled ↔ ∀ field rest, ruled = .ok (field, some rest) → EvenlyLed rest := by
  have searched := chooses_splitKey t key
  constructor
  · rintro rfl field rest split
    rw [split] at searched
    cases searched with
    | longest _ offers => exact offers.allows
  · intro even
    exact searched.unique (chosen.evenlyLed even)

/-- Where the rule leaves a rest that is oddly led, the search finds nothing or a shorter column;
the rest behind it then holds the whole rest of the rule. -/
theorem splitKey_of_not_evenlyLed (chosen : t.Chooses (fun _ => True) key (.ok (field, some rest)))
    (odd : ¬ EvenlyLed rest) :
    t.splitKey key = .error (.unknownColumn t.name key) ∨
      ∃ shorter later, t.splitKey key = .ok (shorter, some later) ∧ shorter ≠ field ∧
        '_' ∈ later.toList := by
  have searched := chooses_splitKey t key
  generalize t.splitKey key = answer at searched
  cases chosen with
  | longest unnamed offers =>
      cases searched with
      | column known => cases unnamed.symm.trans known
      | unknown => exact .inl rfl
      | @longest shorter later _ others =>
          have differs : shorter.length ≠ field.length := by
            intro same
            obtain ⟨_, rfl⟩ := others.offered.eq offers.offered same
            exact odd others.allows
          have within := offers.longest _ _ others.offered trivial
          have front := congrArg String.length others.offered.whole
          have back := congrArg String.length offers.offered.whole
          simp only [String.length_append] at front back
          have ends : rest.toList <:+ key.toList :=
            ⟨(field ++ "__").toList, by simp [offers.offered.whole]⟩
          have covers : later.toList <:+ key.toList :=
            ⟨(shorter ++ "__").toList, by simp [others.offered.whole]⟩
          have inside : rest.toList <:+ later.toList := by
            apply List.suffix_of_suffix_length_le ends covers
            rw [String.length_toList, String.length_toList]
            omega
          refine .inr ⟨shorter, later, rfl, fun same => differs (by rw [same]), ?_⟩
          exact inside.subset (underscore_mem_of_not_evenlyLed odd)

/-- Every reader of keys refuses a key with the error. -/
structure Refuses (t : Table) (key : String) (e : Error) : Prop where
  filter : t.parseKey key = .error e
  insert : t.plainColumn key = .error e
  assignment : ∀ {α : Type} (operand : α), Assignment.ofKey t key operand = .error e

theorem refuses_of_splitKey_eq_error {e : Error} (split : t.splitKey key = .error e) :
    t.Refuses key e := by
  constructor
  · rw [parseKey, split]
    rfl
  · rw [plainColumn, split]
    rfl
  · intro α operand
    rw [Assignment.ofKey, split]
    rfl

/-- A rest with an underscore is refused by every reader of keys. -/
theorem refuses_of_underscore_mem (split : t.splitKey key = .ok (field, some rest))
    (underscore : '_' ∈ rest.toList) : t.Refuses key (.unsupportedOperator field rest) := by
  obtain ⟨unread, differs⟩ := no_suffix_of_underscore_mem underscore
  constructor
  · rw [parseKey, split]
    simp only [bind, Except.bind, unread]
    rfl
  · rw [plainColumn, split]
    rfl
  · intro α operand
    rw [Assignment.ofKey, split]
    simp only [bind, Except.bind, if_neg differs]
    rfl

/-- A key is split at the longest column that it offers with an evenly led rest, which is the
answer of the rule of the longest column unless this rule leaves an oddly led rest. Then the rule
blames that rest of that column; every reader of keys refuses the key as well, but blames something
else. -/
theorem splitKey_passes_over_overlaps (t : Table) (key : String) :
    t.Chooses EvenlyLed key (t.splitKey key) ∧
      ∃ ruled, (∀ answer, t.Chooses (fun _ => True) key answer ↔ answer = ruled) ∧
        (t.splitKey key = ruled ↔
          ∀ field rest, ruled = .ok (field, some rest) → EvenlyLed rest) ∧
        ∀ field rest, ruled = .ok (field, some rest) → ¬ EvenlyLed rest →
          Operator.ofSuffix? rest = none ∧ rest ≠ incrementSuffix ∧
            ∃ e, t.Refuses key e ∧ e ≠ .unsupportedOperator field rest := by
  obtain ⟨ruled, chosen⟩ := exists_chooses t (fun _ => True) key
  refine ⟨chooses_splitKey t key, ruled, fun answer => ?_, splitKey_eq_iff chosen, ?_⟩
  · constructor
    · exact fun other => other.unique chosen
    · rintro rfl
      exact chosen
  · rintro field rest rfl odd
    obtain ⟨unread, differs⟩ := no_suffix_of_underscore_mem (underscore_mem_of_not_evenlyLed odd)
    refine ⟨unread, differs, ?_⟩
    rcases splitKey_of_not_evenlyLed chosen odd with unknown | ⟨shorter, later, split, other, held⟩
    · exact ⟨_, refuses_of_splitKey_eq_error unknown, nofun⟩
    · refine ⟨_, refuses_of_underscore_mem split held, fun same => ?_⟩
      cases same
      exact other rfl

def letters : Table := ⟨"t", [⟨"a", "INTEGER", true, false⟩], false⟩

/-- Behind the only column of the key stand three underscores, the last two of which hide the
delimiter. -/
theorem splitKey_letters :
    letters.Chooses (fun _ => True) "a___b" (.ok ("a", some "_b")) ∧
      letters.splitKey "a___b" = .error (.unknownColumn "t" "a___b") ∧
      letters.Refuses "a___b" (.unknownColumn "t" "a___b") := by
  have split : letters.splitKey "a___b" = .error (.unknownColumn "t" "a___b") := by rfl
  have only (field : String) (known : letters.hasColumn field = true) : field = "a" := by
    obtain ⟨c, listed, rfl⟩ := hasColumn_iff.mp known
    rw [List.mem_singleton.mp listed]
  refine ⟨.longest rfl ⟨⟨rfl, rfl⟩, trivial, ?_⟩, split, refuses_of_splitKey_eq_error split⟩
  intro other later offers _
  have same : other = "a" := only other offers.known
  subst same
  exact Nat.le_refl _

end Table

end TableAccess
