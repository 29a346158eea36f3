import Mathlib

/-!
# Python dictionaries

A dictionary is the list of its items in insertion order.  Assigning to a key
that is present replaces the value and keeps the place; another key goes to
the end.  A display, a comprehension or a parsed object assigns its pairs one
after the other, so the keys come out distinct and the last value wins.
-/

namespace UTTG.Python

abbrev Dict (Key Value : Type*) := List (Key × Value)

namespace Dict

variable {Key Value : Type*} [DecidableEq Key]

omit [DecidableEq Key] in
def keys (dict : Dict Key Value) : List Key := dict.map Prod.fst

omit [DecidableEq Key] in
def values (dict : Dict Key Value) : List Value := dict.map Prod.snd

/-- `dict.get(key)`. -/
def get (dict : Dict Key Value) (key : Key) : Option Value :=
  (dict.find? fun item => item.1 = key).map Prod.snd

/-- `dict[key] = value`. -/
def set (dict : Dict Key Value) (key : Key) (value : Value) :
    Dict Key Value :=
  if key ∈ keys dict then
    dict.map fun item => if item.1 = key then (key, value) else item
  else dict ++ [(key, value)]

/-- The pairs assigned in order, starting from an empty dictionary. -/
def ofPairs (pairs : List (Key × Value)) : Dict Key Value :=
  pairs.foldl (fun dict pair => set dict pair.1 pair.2) []

theorem mem_of_get {dict : Dict Key Value} {key : Key} {value : Value}
    (hget : get dict key = some value) : (key, value) ∈ dict := by
  obtain ⟨item, hfind, hvalue⟩ := Option.map_eq_some_iff.mp hget
  have hkey : item.1 = key := by simpa using List.find?_some hfind
  rw [← hkey, ← hvalue]
  exact List.mem_of_find?_eq_some hfind

/-- An item of a dictionary is found under its key. -/
theorem get_eq_some_iff {dict : Dict Key Value} (hnodup : (keys dict).Nodup)
    {key : Key} {value : Value} :
    get dict key = some value ↔ (key, value) ∈ dict := by
  refine ⟨mem_of_get, fun hmem => ?_⟩
  cases hget : get dict key with
  | none =>
      rw [get, Option.map_eq_none_iff, List.find?_eq_none] at hget
      simpa using hget (key, value) hmem
  | some other =>
      have hsame : (key, other) = (key, value) :=
        List.inj_on_of_nodup_map hnodup (mem_of_get hget) hmem rfl
      rw [(Prod.mk.inj hsame).2]

/-- After an assignment the new value is found, and every other one as
before. -/
theorem get_set (dict : Dict Key Value) (key : Key) (value : Value)
    (other : Key) :
    get (set dict key value) other =
      if other = key then some value else get dict other := by
  unfold set
  split
  · next hpresent =>
      rw [get, List.find?_map, Option.map_map]
      have hsame : (fun item : Key × Value => decide (item.1 = other)) ∘
          (fun item => if item.1 = key then (key, value) else item) =
            fun item => decide (item.1 = other) := by
        funext item
        by_cases hkey : item.1 = key
        · simp [hkey]
        · simp [hkey]
      rw [hsame]
      by_cases hother : other = key
      · obtain ⟨item, hitem, hkey⟩ := List.mem_map.mp hpresent
        subst hother
        cases hfind : dict.find? fun item => item.1 = other with
        | none => simpa [hkey] using List.find?_eq_none.mp hfind item hitem
        | some found =>
            have hfound : found.1 = other := by
              simpa using List.find?_some hfind
            simp [hfound]
      · rw [if_neg hother]
        cases hfind : dict.find? fun item => item.1 = other with
        | none => simp [get, hfind]
        | some found =>
            have hfound : found.1 = other := by
              simpa using List.find?_some hfind
            simp [get, hfind, hfound, hother]
  · next habsent =>
      rw [get, List.find?_append]
      by_cases hother : other = key
      · subst hother
        have hnone : (dict.find? fun item => item.1 = other) = none := by
          rw [List.find?_eq_none]
          intro item hitem hkey
          apply habsent
          rw [← of_decide_eq_true hkey]
          exact List.mem_map_of_mem hitem
        simp [hnone]
      · simp [get, hother, Ne.symm hother]

theorem keys_set (dict : Dict Key Value) (key : Key) (value : Value) :
    keys (set dict key value) =
      if key ∈ keys dict then keys dict else keys dict ++ [key] := by
  unfold set
  split
  · rw [keys, List.map_map]
    apply List.map_congr_left
    intro item _
    by_cases hkey : item.1 = key
    · simp [hkey]
    · simp [hkey]
  · rw [keys, List.map_append]
    rfl

theorem nodup_set {dict : Dict Key Value} (hnodup : (keys dict).Nodup)
    (key : Key) (value : Value) : (keys (set dict key value)).Nodup := by
  rw [keys_set]
  split
  · exact hnodup
  · next habsent =>
      exact List.Nodup.append hnodup (List.nodup_singleton key)
        (by simpa using habsent)

/-- Every item of the dictionary is the assigned one or was there before. -/
theorem mem_set {dict : Dict Key Value} {key : Key} {value : Value}
    {item : Key × Value} (hmem : item ∈ set dict key value) :
    item = (key, value) ∨ item ∈ dict := by
  unfold set at hmem
  split at hmem
  · obtain ⟨old, hold, rfl⟩ := List.mem_map.mp hmem
    split
    · exact .inl rfl
    · exact .inr hold
  · rw [List.mem_append, List.mem_singleton] at hmem
    exact hmem.symm

theorem ofPairs_append_singleton (pairs : List (Key × Value))
    (pair : Key × Value) :
    ofPairs (pairs ++ [pair]) = set (ofPairs pairs) pair.1 pair.2 := by
  rw [ofPairs, List.foldl_append]
  rfl

theorem nodup_ofPairs (pairs : List (Key × Value)) :
    (keys (ofPairs pairs)).Nodup := by
  induction pairs using List.reverseRecOn with
  | nil => exact List.nodup_nil
  | append_singleton pairs pair ih =>
      rw [ofPairs_append_singleton]
      exact nodup_set ih pair.1 pair.2

/-- The items of the dictionary are among the pairs. -/
theorem mem_of_mem_ofPairs {pairs : List (Key × Value)} {item : Key × Value}
    (hmem : item ∈ ofPairs pairs) : item ∈ pairs := by
  induction pairs using List.reverseRecOn with
  | nil => exact hmem
  | append_singleton pairs pair ih =>
      rw [ofPairs_append_singleton] at hmem
      rw [List.mem_append, List.mem_singleton]
      rcases mem_set hmem with hpair | hmem
      · exact .inr hpair
      · exact .inl (ih hmem)

theorem mem_keys_ofPairs (pairs : List (Key × Value)) (key : Key) :
    key ∈ keys (ofPairs pairs) ↔ key ∈ pairs.map Prod.fst := by
  induction pairs using List.reverseRecOn with
  | nil => exact Iff.rfl
  | append_singleton pairs pair ih =>
      rw [ofPairs_append_singleton, keys_set, List.map_append, List.mem_append,
        ← ih]
      split
      · next hpresent =>
          refine ⟨.inl, ?_⟩
          rintro (hmem | hmem)
          · exact hmem
          · simp only [List.map_cons, List.map_nil, List.mem_singleton] at hmem
            rw [hmem]
            exact hpresent
      · rw [List.mem_append]
        exact Iff.rfl

/-- Pairs with distinct keys are a dictionary as they stand. -/
theorem ofPairs_of_nodup {pairs : List (Key × Value)}
    (hnodup : (pairs.map Prod.fst).Nodup) : ofPairs pairs = pairs := by
  induction pairs using List.reverseRecOn with
  | nil => rfl
  | append_singleton pairs pair ih =>
      rw [List.map_append, List.nodup_append] at hnodup
      obtain ⟨hpairs, -, hdisjoint⟩ := hnodup
      rw [ofPairs_append_singleton, ih hpairs, set, if_neg]
      intro hmem
      exact hdisjoint pair.1 hmem pair.1 List.mem_cons_self rfl

/-- A repeated key makes the dictionary shorter than the list of pairs. -/
theorem length_ofPairs_eq_iff (pairs : List (Key × Value)) :
    (ofPairs pairs).length = pairs.length ↔
      (pairs.map Prod.fst).Nodup := by
  have hkeys : (keys (ofPairs pairs)).toFinset =
      (pairs.map Prod.fst).toFinset := by
    ext key
    rw [List.mem_toFinset, List.mem_toFinset]
    exact mem_keys_ofPairs pairs key
  have hcard : (ofPairs pairs).length = (pairs.map Prod.fst).toFinset.card := by
    calc (ofPairs pairs).length
        = (keys (ofPairs pairs)).length := (List.length_map _).symm
      _ = (keys (ofPairs pairs)).toFinset.card :=
          (List.toFinset_card_of_nodup (nodup_ofPairs pairs)).symm
      _ = (pairs.map Prod.fst).toFinset.card := congrArg Finset.card hkeys
  have hlength : pairs.length = (pairs.map Prod.fst).length :=
    (List.length_map _).symm
  rw [hcard, hlength, List.card_toFinset]
  constructor
  · intro heq
    exact List.dedup_eq_self.mp ((List.dedup_sublist _).eq_of_length heq)
  · intro hnodup
    rw [List.dedup_eq_self.mpr hnodup]

/-! ## Values that carry their key -/

/-- The keys are distinct and every value carries the key it is under. -/
structure Keyed (key : Value → Key) (dict : Dict Key Value) : Prop where
  distinct : (keys dict).Nodup
  key_of_mem : ∀ {item}, item ∈ dict → key item.2 = item.1

variable {key : Value → Key}

omit [DecidableEq Key] in
theorem keyed_nil : Keyed key ([] : Dict Key Value) :=
  ⟨List.nodup_nil, by simp⟩

theorem Keyed.set {dict : Dict Key Value} (hkeyed : Keyed key dict)
    {id : Key} {value : Value} (hvalue : key value = id) :
    Keyed key (Dict.set dict id value) := by
  refine ⟨nodup_set hkeyed.distinct id value, fun {item} hitem => ?_⟩
  rcases mem_set hitem with rfl | hitem
  · exact hvalue
  · exact hkeyed.key_of_mem hitem

/-- A comprehension whose keys are those of its values. -/
theorem keyed_ofPairs {pairs : List (Key × Value)}
    (hpairs : ∀ pair ∈ pairs, key pair.2 = pair.1) :
    Keyed key (ofPairs pairs) :=
  ⟨nodup_ofPairs pairs, fun hitem => hpairs _ (mem_of_mem_ofPairs hitem)⟩

omit [DecidableEq Key] in
/-- Some of the items, in the same order. -/
theorem Keyed.sublist {dict part : Dict Key Value} (hkeyed : Keyed key dict)
    (hpart : part.Sublist dict) : Keyed key part :=
  ⟨(hpart.map Prod.fst).nodup hkeyed.distinct,
    fun hitem => hkeyed.key_of_mem (hpart.subset hitem)⟩

omit [DecidableEq Key] in
/-- The items in another order. -/
theorem Keyed.perm {dict other : Dict Key Value} (hkeyed : Keyed key dict)
    (hperm : other.Perm dict) : Keyed key other :=
  ⟨((hperm.map Prod.fst).nodup_iff).mpr hkeyed.distinct,
    fun hitem => hkeyed.key_of_mem (hperm.mem_iff.mp hitem)⟩

omit [DecidableEq Key] in
theorem Keyed.map_values {dict : Dict Key Value} (hkeyed : Keyed key dict) :
    (values dict).map key = keys dict := by
  rw [values, List.map_map]
  exact List.map_congr_left fun item hitem => hkeyed.key_of_mem hitem

omit [DecidableEq Key] in
/-- The values have distinct keys. -/
theorem Keyed.nodup {dict : Dict Key Value} (hkeyed : Keyed key dict) :
    ((values dict).map key).Nodup := by
  rw [hkeyed.map_values]
  exact hkeyed.distinct

/-- The values of a comprehension have the keys of its pairs. -/
theorem mem_map_values_ofPairs {pairs : List (Key × Value)}
    (hpairs : ∀ pair ∈ pairs, key pair.2 = pair.1) (id : Key) :
    id ∈ (values (ofPairs pairs)).map key ↔ id ∈ pairs.map Prod.fst := by
  rw [(keyed_ofPairs hpairs).map_values, mem_keys_ofPairs]

/-! ## The last values -/

/-- An assignment later in the list wins. -/
theorem get_ofPairs (pairs : List (Key × Value)) (key : Key) :
    get (ofPairs pairs) key =
      (pairs.reverse.find? fun pair => pair.1 = key).map Prod.snd := by
  induction pairs using List.reverseRecOn with
  | nil => rfl
  | append_singleton pairs pair ih =>
      rw [ofPairs_append_singleton, get_set, ih, List.reverse_append,
        List.reverse_singleton, List.singleton_append, List.find?_cons]
      by_cases hkey : key = pair.1
      · simp [hkey]
      · simp [hkey, Ne.symm hkey]

/-- The value is the last one of its key. -/
def IsLast (key : Value → Key) (values : List Value) (value : Value) : Prop :=
  ∃ before after, values = before ++ value :: after ∧
    ∀ later ∈ after, key later ≠ key value

omit [DecidableEq Key] in
/-- Keys that tell the same values apart. -/
theorem isLast_congr {Other : Type*} {other : Value → Other}
    {values : List Value} (hsame : ∀ left ∈ values, ∀ right ∈ values,
      key left = key right ↔ other left = other right) (value : Value) :
    IsLast key values value ↔ IsLast other values value := by
  constructor
  · rintro ⟨before, after, rfl, hafter⟩
    refine ⟨before, after, rfl, fun later hlater heq => ?_⟩
    exact hafter later hlater ((hsame later (by simp [hlater]) value
      (by simp)).mpr heq)
  · rintro ⟨before, after, rfl, hafter⟩
    refine ⟨before, after, rfl, fun later hlater heq => ?_⟩
    exact hafter later hlater ((hsame later (by simp [hlater]) value
      (by simp)).mp heq)

/-- A comprehension under the keys of its values has the last value of every
key. -/
theorem mem_values_ofPairs_iff (values : List Value) (value : Value) :
    value ∈ Dict.values (ofPairs (values.map fun value => (key value, value))) ↔
      IsLast key values value := by
  have hkeyed : Keyed key
      (ofPairs (values.map fun value => (key value, value))) := by
    refine keyed_ofPairs fun pair hpair => ?_
    rcases List.mem_map.mp hpair with ⟨value, -, rfl⟩
    rfl
  have hmem : value ∈ Dict.values
      (ofPairs (values.map fun value => (key value, value))) ↔
        get (ofPairs (values.map fun value => (key value, value)))
          (key value) = some value := by
    rw [get_eq_some_iff hkeyed.distinct, Dict.values, List.mem_map]
    constructor
    · rintro ⟨item, hitem, rfl⟩
      rw [hkeyed.key_of_mem hitem]
      exact hitem
    · intro hitem
      exact ⟨_, hitem, rfl⟩
  rw [hmem, get_ofPairs, ← List.map_reverse, List.find?_map, Option.map_map]
  constructor
  · intro hfind
    obtain ⟨found, hfound, rfl⟩ := Option.map_eq_some_iff.mp hfind
    rcases List.find?_eq_some_iff_append.mp hfound with
      ⟨-, after, before, hvalues, hafter⟩
    refine ⟨before.reverse, after.reverse, ?_, fun later hlater => ?_⟩
    · rw [← List.reverse_reverse values, hvalues]
      simp
    · simpa using hafter later (List.mem_reverse.mp hlater)
  · rintro ⟨before, after, rfl, hafter⟩
    refine Option.map_eq_some_iff.mpr ⟨value, ?_, rfl⟩
    refine List.find?_eq_some_iff_append.mpr ⟨by simp, after.reverse,
      before.reverse, by simp, fun later hlater => ?_⟩
    simpa using hafter later (List.mem_reverse.mp hlater)

end Dict

end UTTG.Python
