import TableAccess.Filter.Key
import TableAccess.Proofs.Outcome

/-!
# What keys are read as

Whatever a key is read as, its field is a column of the table, and the key is the field and its
suffix. A column with the suffix of an operator is read as just that, whatever other columns there
are, unless the whole is a column too: since no suffix holds a part of the delimiter, the first way
to split such a key is the one that was meant.
-/

namespace TableAccess

/-- What is searched and what was passed make up the key in every way to split it. -/
theorem append_of_mem_splitsBack {searched passed : List Char} {split : List Char × List Char}
    (member : split ∈ splitsBack searched passed) :
    searched.reverse ++ passed = split.1 ++ '_' :: '_' :: split.2 := by
  induction searched, passed using splitsBack.induct with
  | case1 before after ih =>
      rw [splitsBack] at member
      rcases List.mem_cons.mp member with rfl | later
      · simp
      · simpa using ih later
  | case2 c before after other ih =>
      rw [splitsBack] at member
      · simpa using ih member
      · exact other
  | case3 => cases member

theorem eq_append_of_mem_keySplits {key : String} {split : String × String}
    (member : split ∈ keySplits key) : key = split.1 ++ "__" ++ split.2 := by
  obtain ⟨⟨field, suffix⟩, listed, rfl⟩ := List.mem_map.mp member
  have whole := append_of_mem_splitsBack listed
  apply String.toList_injective
  simpa using whole

namespace Table

variable {t : Table} {key field : String}

theorem hasColumn_of_splitKey {suffix : Option String}
    (split : t.splitKey key = .ok (field, suffix)) : t.hasColumn field = true := by
  unfold splitKey at split
  split at split
  · rename_i whole
    cases split
    exact whole
  · split at split
    · rename_i found
      cases split
      have held := List.find?_some found
      exact held
    · cases split

/-- A key without a suffix is the column that it names. -/
theorem eq_of_splitKey (split : t.splitKey key = .ok (field, none)) : field = key := by
  unfold splitKey at split
  split at split
  · cases split
    rfl
  · split at split <;> cases split

theorem eq_append_of_splitKey {suffix : String}
    (split : t.splitKey key = .ok (field, some suffix)) : key = field ++ "__" ++ suffix := by
  unfold splitKey at split
  split at split
  · cases split
  · split at split
    · rename_i found
      cases split
      exact eq_append_of_mem_keySplits (List.mem_of_find?_eq_some found)
    · cases split

theorem hasColumn_of_parseKey {op : Operator} (parsed : t.parseKey key = .ok (field, op)) :
    t.hasColumn field = true := by
  obtain ⟨⟨column, suffix⟩, split, rest⟩ := bind_eq_ok_iff.mp parsed
  have known := hasColumn_of_splitKey split
  cases suffix with
  | none =>
      cases rest
      exact known
  | some suffix =>
      dsimp only at rest
      split at rest
      · cases rest
        exact known
      · cases rest

theorem hasColumn_of_requireColumn {c : Column} (found : t.requireColumn key = .ok c) :
    t.hasColumn key = true := by
  rw [hasColumn, requireColumn_eq_ok_iff.mp found]
  rfl

end Table

/-! ## Keys with a suffix -/

def Operator.key (op : Operator) (field : String) : String :=
  match op.suffix? with
  | none => field
  | some suffix => field ++ "__" ++ suffix

/-- No suffix holds a part of the delimiter. -/
theorem Operator.underscore_notMem_suffix {op : Operator} {suffix : String}
    (chosen : op.suffix? = some suffix) : '_' ∉ suffix.toList ∧ suffix.toList ≠ [] := by
  cases op <;> cases chosen <;> decide

theorem Operator.key_eq {op : Operator} {suffix : String} (chosen : op.suffix? = some suffix)
    (field : String) : op.key field = field ++ "__" ++ suffix := by
  unfold key
  rw [chosen]

/-- Equality is the only operator without a suffix. -/
theorem Operator.eq_of_suffix? {op : Operator} (unsuffixed : op.suffix? = none) : op = .eq := by
  cases op with
  | eq => rfl
  | not | gt | gte | lt | lte | isIn | notIn | like => cases unsuffixed

theorem Operator.exists_suffix? {op : Operator} (suffixed : op ≠ .eq) :
    ∃ suffix, op.suffix? = some suffix :=
  Option.ne_none_iff_exists'.mp fun unsuffixed => suffixed (eq_of_suffix? unsuffixed)

/-- A part without delimiters is passed as it is. -/
theorem splitsBack_append {passed : List Char} (plain : '_' ∉ passed) (searched after : List Char) :
    splitsBack (passed ++ searched) after = splitsBack searched (passed.reverse ++ after) := by
  induction passed generalizing after with
  | nil => rfl
  | cons c rest ih =>
      have other : c ≠ '_' := fun same => plain (same ▸ List.mem_cons_self)
      have later := ih (fun member => plain (List.mem_cons_of_mem c member)) (c :: after)
      rw [List.cons_append, splitsBack, later]
      · simp
      · exact fun _ same => (other same).elim

/-- The suffix of an operator is what stands behind the last delimiter. -/
theorem head_keySplits {suffix : String} (plain : '_' ∉ suffix.toList) (field : String) :
    (keySplits (field ++ "__" ++ suffix)).head? = some (field, suffix) := by
  have reversed : (field ++ "__" ++ suffix).toList.reverse =
      suffix.toList.reverse ++ '_' :: '_' :: field.toList.reverse := by
    simp
  unfold keySplits
  rw [reversed, splitsBack_append (by simpa using plain), splitsBack, List.map_cons]
  simp

namespace Table

variable {t : Table} {key field suffix : String} {op : Operator}

theorem parseKey_column (known : t.hasColumn field = true) :
    t.parseKey field = .ok (field, .eq) := by
  have whole : t.splitKey field = .ok (field, none) := if_pos known
  unfold parseKey
  rw [whole]
  rfl

/-- A column with a suffix is split where the suffix begins, unless the whole is a column too. -/
theorem splitKey_suffixed (known : t.hasColumn field = true) (plain : '_' ∉ suffix.toList)
    (unnamed : t.hasColumn (field ++ "__" ++ suffix) = false) :
    t.splitKey (field ++ "__" ++ suffix) = .ok (field, some suffix) := by
  obtain ⟨others, first⟩ := List.head?_eq_some_iff.mp (head_keySplits plain field)
  have found : (keySplits (field ++ "__" ++ suffix)).find? (fun split => t.hasColumn split.1) =
      some (field, suffix) := by
    rw [first]
    exact List.find?_cons_of_pos known
  unfold splitKey
  rw [if_neg (by simp [unnamed]), found]

/-- A column with the suffix of an operator asks this operator of the column. -/
theorem parseKey_key (known : t.hasColumn field = true) (chosen : op.suffix? = some suffix)
    (unnamed : t.hasColumn (op.key field) = false) :
    t.parseKey (op.key field) = .ok (field, op) := by
  rw [Operator.key_eq chosen] at unnamed ⊢
  have split := splitKey_suffixed known (Operator.underscore_notMem_suffix chosen).1 unnamed
  refine bind_eq_ok_iff.mpr ⟨(field, some suffix), split, ?_⟩
  dsimp only
  rw [Operator.ofSuffix?_eq_some_iff.mpr chosen]
  rfl

/-- Only a key that is no column is split. -/
theorem hasColumn_eq_false_of_splitKey (split : t.splitKey key = .ok (field, some suffix)) :
    t.hasColumn key = false := by
  unfold splitKey at split
  split at split
  · cases split
  · rename_i unnamed
    exact eq_false_of_ne_true unnamed

/-- A key is read as an operator of a column exactly if it asks the operator of the column, and is
no column itself unless no suffix is needed. -/
theorem parseKey_eq_ok_iff : t.parseKey key = .ok (field, op) ↔
    key = op.key field ∧ t.hasColumn field = true ∧ (op ≠ .eq → t.hasColumn key = false) := by
  constructor
  · intro parsed
    have known := hasColumn_of_parseKey parsed
    obtain ⟨⟨column, suffix⟩, split, rest⟩ := bind_eq_ok_iff.mp parsed
    cases suffix with
    | none =>
        cases rest
        exact ⟨(eq_of_splitKey split).symm, known, fun suffixed => absurd rfl suffixed⟩
    | some suffix =>
        dsimp only at rest
        split at rest
        · rename_i read
          cases rest
          have chosen := Operator.ofSuffix?_eq_some_iff.mp read
          exact ⟨(eq_append_of_splitKey split).trans (Operator.key_eq chosen field).symm, known,
            fun _ => hasColumn_eq_false_of_splitKey split⟩
        · cases rest
  · rintro ⟨rfl, known, unnamed⟩
    cases chosen : op.suffix? with
    | none =>
        obtain rfl : op = .eq := Operator.eq_of_suffix? chosen
        exact parseKey_column known
    | some suffix =>
        have suffixed : op ≠ .eq := by
          rintro rfl
          cases chosen
        exact parseKey_key known chosen (unnamed suffixed)

/-- A key that is a column is read as that column. Any other key is read as an operator of a column
exactly if it is the column and the operator's suffix with the delimiter between them, and is
refused if it is no such thing. Hence every column is found by its name and the suffix of every
operator, whatever other columns there are, unless one of them has just this name. -/
theorem parseKey_reads_grammar (t : Table) (key : String) :
    (t.hasColumn key = true → t.parseKey key = .ok (key, .eq)) ∧
    (∀ field op, op ≠ .eq → (t.parseKey key = .ok (field, op) ↔
      t.hasColumn key = false ∧ t.hasColumn field = true ∧
        ∃ suffix, op.suffix? = some suffix ∧ key = field ++ "__" ++ suffix)) ∧
    ((∃ e, t.parseKey key = .error e) ↔ t.hasColumn key = false ∧
      ∀ field (op : Operator) suffix, t.hasColumn field = true → op.suffix? = some suffix →
        key ≠ field ++ "__" ++ suffix) ∧
    ∀ field (op : Operator) suffix, t.hasColumn field = true → op.suffix? = some suffix →
      t.hasColumn (field ++ "__" ++ suffix) = false →
        t.parseKey (field ++ "__" ++ suffix) = .ok (field, op) := by
  refine ⟨parseKey_column, fun field op suffixed => ?reads, ?refuses, ?finds⟩
  case reads =>
    rw [parseKey_eq_ok_iff]
    obtain ⟨suffix, chosen⟩ := Operator.exists_suffix? suffixed
    simp only [Operator.key_eq chosen, chosen, Option.some.injEq, exists_eq_left']
    exact ⟨fun ⟨whole, known, unnamed⟩ => ⟨unnamed suffixed, known, whole⟩,
      fun ⟨unnamed, known, whole⟩ => ⟨whole, known, fun _ => unnamed⟩⟩
  case refuses =>
    constructor
    · rintro ⟨e, refused⟩
      have unread (field : String) (op : Operator) : t.parseKey key ≠ .ok (field, op) := by
        rw [refused]
        exact nofun
      have unnamed : t.hasColumn key = false := by
        refine eq_false_of_ne_true fun known => ?_
        exact unread key .eq (parseKey_column known)
      refine ⟨unnamed, fun field op suffix known chosen whole => unread field op ?_⟩
      exact parseKey_eq_ok_iff.mpr
        ⟨whole.trans (Operator.key_eq chosen field).symm, known, fun _ => unnamed⟩
    · rintro ⟨unnamed, others⟩
      cases parsed : t.parseKey key with
      | error e => exact ⟨e, rfl⟩
      | ok read =>
          obtain ⟨field, op⟩ := read
          obtain ⟨whole, known, _⟩ := parseKey_eq_ok_iff.mp parsed
          cases chosen : op.suffix? with
          | none =>
              obtain rfl : op = .eq := Operator.eq_of_suffix? chosen
              obtain rfl : key = field := whole
              cases unnamed.symm.trans known
          | some suffix =>
              exact absurd (whole.trans (Operator.key_eq chosen field))
                (others field op suffix known chosen)
  case finds =>
    intro field op suffix known chosen unnamed
    rw [← Operator.key_eq chosen] at unnamed ⊢
    exact parseKey_key known chosen unnamed

end Table

end TableAccess
