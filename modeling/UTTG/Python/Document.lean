import UTTG.Python.JsonRoundTrip

/-!
# What a reader sees of a value

`document` renders a value as a JSON document: strings as they are, leaves that
JSON does not have as strings.  A value that went through `dumps` and `loads`
gives the same document exactly when it has no such leaf and no split surrogate
pair, provided the two renderings of a leaf differ.
-/

namespace UTTG.Python

section Document

variable {F D : Type} (leaf : D → Text)

mutual

def document : Value F D → Value F Empty
  | .null => .null
  | .bool value => .bool value
  | .int value => .int value
  | .float value => .float value
  | .str value => .str value
  | .list items => .list (documentItems items)
  | .dict items => .dict (documentMembers items)
  | .other value => .str (leaf value)

def documentItems : List (Value F D) → List (Value F Empty)
  | [] => []
  | item :: items => document item :: documentItems items

def documentMembers : List (Text × Value F D) → List (Text × Value F Empty)
  | [] => []
  | (key, item) :: items => (key, document item) :: documentMembers items

end

mutual

/-- The value has no leaf outside JSON, and no string in it, keys included,
has a split surrogate pair. -/
def isWhole : Value F D → Bool
  | .str value => decide (Unsplit value)
  | .list items => isWholeItems items
  | .dict items => isWholeMembers items
  | .other _ => false
  | _ => true

def isWholeItems : List (Value F D) → Bool
  | [] => true
  | item :: items => isWhole item && isWholeItems items

def isWholeMembers : List (Text × Value F D) → Bool
  | [] => true
  | (key, item) :: items =>
      decide (Unsplit key) && (isWhole item && isWholeMembers items)

end

mutual

/-- Every object in the value has distinct keys, as a dictionary does. -/
def Distinct : Value F D → Prop
  | .list items => DistinctItems items
  | .dict items => (Dict.keys items).Nodup ∧ DistinctMembers items
  | _ => True

def DistinctItems : List (Value F D) → Prop
  | [] => True
  | item :: items => Distinct item ∧ DistinctItems items

def DistinctMembers : List (Text × Value F D) → Prop
  | [] => True
  | (_, item) :: items => Distinct item ∧ DistinctMembers items

end

theorem keys_documentMembers (items : List (Text × Value F D)) :
    Dict.keys (documentMembers leaf items) = Dict.keys items := by
  induction items with
  | nil => rfl
  | cons entry items ih =>
      rw [documentMembers]
      exact congrArg (entry.1 :: ·) ih

theorem length_documentMembers (items : List (Text × Value F D)) :
    (documentMembers leaf items).length = items.length := by
  induction items with
  | nil => rfl
  | cons entry items ih =>
      rw [documentMembers, List.length_cons, List.length_cons, ih]

theorem length_readBackMembers (default : D → Option Text)
    (items : List (Text × Value F D)) :
    (readBackMembers default items).length = items.length := by
  induction items with
  | nil => rfl
  | cons entry items ih =>
      rw [readBackMembers, List.length_cons, List.length_cons, ih]

theorem distinctMembers_iff (items : List (Text × Value F D)) :
    DistinctMembers items ↔ ∀ entry ∈ items, Distinct entry.2 := by
  induction items with
  | nil => simp [DistinctMembers]
  | cons entry items ih =>
      rw [DistinctMembers, List.forall_mem_cons, ih]

/-- No leaf that is written and read back becomes its own rendering. -/
def Differs (default : D → Option Text) : Prop :=
  ∀ value, ∃ string, default value = some string ∧
    joinPairs string ≠ leaf value

section ReadBack

variable {leaf} {default : D → Option Text}

/-- If the members are read back with the same documents, then an object is,
and otherwise it is not: should two keys become one, an item is lost. -/
theorem document_readBack_dict {items : List (Text × Value F D)}
    (hdistinct : (Dict.keys items).Nodup)
    (hmembers : documentMembers leaf (readBackMembers default items) =
        documentMembers leaf items ↔ isWholeMembers items = true) :
    document leaf (readBack default (.dict items)) =
        document leaf (.dict items) ↔ isWholeMembers items = true := by
  rw [readBack, document, document, Value.dict.injEq, ← hmembers]
  constructor
  · intro hsame
    have hlength : (Dict.ofPairs (readBackMembers default items)).length =
        (readBackMembers default items).length := by
      calc (Dict.ofPairs (readBackMembers default items)).length
          = (documentMembers leaf
              (Dict.ofPairs (readBackMembers default items))).length :=
            (length_documentMembers leaf _).symm
        _ = (documentMembers leaf items).length := congrArg List.length hsame
        _ = items.length := length_documentMembers leaf items
        _ = (readBackMembers default items).length :=
            (length_readBackMembers default items).symm
    rwa [Dict.ofPairs_of_nodup
      ((Dict.length_ofPairs_eq_iff _).mp hlength)] at hsame
  · intro hsame
    have hkeys : Dict.keys (readBackMembers default items) =
        Dict.keys items := by
      rw [← keys_documentMembers leaf items, ← hsame, keys_documentMembers]
    have hnodup : (Dict.keys (readBackMembers default items)).Nodup := by
      rw [hkeys]
      exact hdistinct
    rw [Dict.ofPairs_of_nodup hnodup, hsame]

mutual

/-- Writing and reading keeps the document of exactly the whole values. -/
theorem document_readBack (hdiffers : Differs leaf default) :
    ∀ value : Value F D, Distinct value →
      (document leaf (readBack default value) = document leaf value ↔
        isWhole value = true)
  | .null, _ => iff_of_true rfl rfl
  | .bool _, _ => iff_of_true rfl rfl
  | .int _, _ => iff_of_true rfl rfl
  | .float _, _ => iff_of_true rfl rfl
  | .str value, _ => by
      rw [readBack, document, document, Value.str.injEq,
        joinPairs_eq_self_iff, isWhole, decide_eq_true_eq]
  | .list items, hdistinct => by
      rw [readBack, document, document, Value.list.injEq, isWhole]
      exact documentItems_readBackItems hdiffers items hdistinct
  | .dict items, hdistinct => by
      rw [isWhole]
      exact document_readBack_dict hdistinct.1
        (documentMembers_readBackMembers hdiffers items hdistinct.2)
  | .other value, _ => by
      obtain ⟨string, hstring, hother⟩ := hdiffers value
      refine iff_of_false (fun hsame => hother ?_) Bool.false_ne_true
      rwa [readBack, hstring, document, document, Value.str.injEq] at hsame

theorem documentItems_readBackItems (hdiffers : Differs leaf default) :
    ∀ items : List (Value F D), DistinctItems items →
      (documentItems leaf (readBackItems default items) =
        documentItems leaf items ↔ isWholeItems items = true)
  | [], _ => iff_of_true rfl rfl
  | item :: items, hdistinct => by
      rw [readBackItems, documentItems, documentItems, isWholeItems,
        Bool.and_eq_true, List.cons.injEq]
      exact and_congr (document_readBack hdiffers item hdistinct.1)
        (documentItems_readBackItems hdiffers items hdistinct.2)

theorem documentMembers_readBackMembers (hdiffers : Differs leaf default) :
    ∀ items : List (Text × Value F D), DistinctMembers items →
      (documentMembers leaf (readBackMembers default items) =
        documentMembers leaf items ↔ isWholeMembers items = true)
  | [], _ => iff_of_true rfl rfl
  | (key, item) :: items, hdistinct => by
      rw [readBackMembers, documentMembers, documentMembers, isWholeMembers,
        Bool.and_eq_true, Bool.and_eq_true, List.cons.injEq, Prod.mk.injEq,
        joinPairs_eq_self_iff, decide_eq_true_eq, and_assoc]
      exact and_congr_right fun _ =>
        and_congr (document_readBack hdiffers item hdistinct.1)
          (documentMembers_readBackMembers hdiffers items hdistinct.2)

end

end ReadBack

end Document

/-! ## Reading back twice -/

section Twice

variable {F : Type} (default : Empty → Option Text)

/-- Members that are read back as they are make a dictionary that is. -/
theorem readBackMembers_of_fixed {items : List (Text × Value F Empty)}
    (hfixed : ∀ item ∈ items,
      joinPairs item.1 = item.1 ∧ readBack default item.2 = item.2) :
    readBackMembers default items = items := by
  induction items with
  | nil => rfl
  | cons item items ih =>
      obtain ⟨hkey, hvalue⟩ := hfixed item List.mem_cons_self
      rw [readBackMembers, hkey, hvalue, ih fun other hother =>
        hfixed other (List.mem_cons_of_mem item hother)]

theorem ofPairs_readBackMembers_twice {items : List (Text × Value F Empty)}
    (hfixed : ∀ item ∈ readBackMembers default items,
      joinPairs item.1 = item.1 ∧ readBack default item.2 = item.2) :
    Dict.ofPairs (readBackMembers default
        (Dict.ofPairs (readBackMembers default items))) =
      Dict.ofPairs (readBackMembers default items) := by
  have hsame := readBackMembers_of_fixed default (fun item hitem =>
    hfixed item (Dict.mem_of_mem_ofPairs hitem))
  rw [hsame]
  exact Dict.ofPairs_of_nodup (Dict.nodup_ofPairs _)

mutual

/-- What was read back is read back as it is. -/
theorem readBack_readBack : ∀ value : Value F Empty,
    readBack default (readBack default value) = readBack default value
  | .null => rfl
  | .bool _ => rfl
  | .int _ => rfl
  | .float _ => rfl
  | .str value => by rw [readBack, readBack, joinPairs_joinPairs]
  | .list items => by rw [readBack, readBack, readBackItems_twice items]
  | .dict items => by
      rw [readBack, readBack, ofPairs_readBackMembers_twice default
        (readBackMembers_fixed items)]

theorem readBackItems_twice : ∀ items : List (Value F Empty),
    readBackItems default (readBackItems default items) =
      readBackItems default items
  | [] => rfl
  | item :: items => by
      rw [readBackItems, readBackItems, readBack_readBack item,
        readBackItems_twice items]

theorem readBackMembers_fixed : ∀ items : List (Text × Value F Empty),
    ∀ item ∈ readBackMembers default items,
      joinPairs item.1 = item.1 ∧ readBack default item.2 = item.2
  | [], _, hitem => by simp [readBackMembers] at hitem
  | (key, value) :: items, item, hitem => by
      rw [readBackMembers, List.mem_cons] at hitem
      rcases hitem with rfl | hitem
      · exact ⟨joinPairs_joinPairs key, readBack_readBack value⟩
      · exact readBackMembers_fixed items item hitem

end

end Twice

/-! ## Values without other leaves -/

section Pure

variable {F : Type}

mutual

theorem document_pure : ∀ value : Value F Empty,
    document Empty.elim value = value
  | .null => rfl
  | .bool _ => rfl
  | .int _ => rfl
  | .float _ => rfl
  | .str _ => rfl
  | .list items => by rw [document, documentItems_pure items]
  | .dict items => by rw [document, documentMembers_pure items]

theorem documentItems_pure : ∀ items : List (Value F Empty),
    documentItems Empty.elim items = items
  | [] => rfl
  | item :: items => by
      rw [documentItems, document_pure item, documentItems_pure items]

theorem documentMembers_pure : ∀ items : List (Text × Value F Empty),
    documentMembers Empty.elim items = items
  | [] => rfl
  | (key, item) :: items => by
      rw [documentMembers, document_pure item, documentMembers_pure items]

end

/-- A JSON value is read back unchanged exactly when no pair in it is
split. -/
theorem readBack_eq_self_iff (default : Empty → Option Text)
    {value : Value F Empty} (hdistinct : Distinct value) :
    readBack default value = value ↔ isWhole value = true := by
  have hdiffers : Differs Empty.elim default := fun value => value.elim
  have hiff := document_readBack hdiffers value hdistinct
  rwa [document_pure, document_pure] at hiff

end Pure

end UTTG.Python
