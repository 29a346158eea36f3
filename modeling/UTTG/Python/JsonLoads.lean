import UTTG.Python.Document

/-!
# What `json.loads` accepts

The scanner of `Json` takes a bound on its recursion.  The bound that `loads`
passes never decides: if some bound lets a scan succeed, one step for each
character it consumes is enough.  What is read has objects with distinct keys.
-/

namespace UTTG.Python

/-! ## Each scan consumes something -/

theorem length_skipSpace_le (source : Text) :
    (skipSpace source).length ≤ source.length :=
  (List.dropWhile_suffix isSpace).length_le

theorem length_scanUnits {source after : Text}
    {units : List (CodePoint × Bool)}
    (hscan : scanUnits source = some (units, after)) :
    after.length < source.length := by
  fun_induction scanUnits source generalizing units after <;>
    simp only [List.length_cons, List.length_nil] <;> grind

theorem length_scanString {source string after : Text}
    (hscan : scanString source = some (string, after)) :
    after.length < source.length := by
  rw [scanString, Option.map_eq_some_iff] at hscan
  obtain ⟨⟨units, rest⟩, hunits, hpair⟩ := hscan
  obtain ⟨-, rfl⟩ := Prod.mk.inj hpair
  exact length_scanUnits hunits

theorem length_spanDigits_le (source : Text) :
    (spanDigits source).2.length ≤ source.length := by
  fun_induction spanDigits source <;> grind

theorem length_spanInteger {source digits after : Text}
    (hspan : spanInteger source = some (digits, after)) :
    after.length < source.length := by
  cases source with
  | nil => simp [spanInteger] at hspan
  | cons code rest =>
      have hdigits := length_spanDigits_le rest
      rw [spanInteger] at hspan
      rw [List.length_cons]
      split at hspan
      · obtain ⟨-, rfl⟩ := Prod.mk.inj (Option.some.inj hspan)
        exact Nat.lt_succ_self _
      · split at hspan
        · obtain ⟨-, rfl⟩ := Prod.mk.inj (Option.some.inj hspan)
          exact Nat.lt_succ_of_le hdigits
        · simp at hspan

theorem length_spanFraction_le (source : Text) :
    (spanFraction source).2.length ≤ source.length := by
  cases source with
  | nil => simp [spanFraction]
  | cons code rest =>
      have hdigits := length_spanDigits_le rest
      rw [spanFraction]
      grind

theorem length_spanSign_le (source : Text) :
    (spanSign source).2.length ≤ source.length := by
  cases source with
  | nil => simp [spanSign]
  | cons code rest =>
      rw [spanSign]
      grind

theorem length_spanExponent_le (source : Text) :
    (spanExponent source).2.length ≤ source.length := by
  cases source with
  | nil => simp [spanExponent]
  | cons code rest =>
      have hsign := length_spanSign_le rest
      have hdigits := length_spanDigits_le (spanSign rest).2
      rw [spanExponent]
      grind

theorem length_spanUnsigned {source literal after : Text} {isFloat : Bool}
    (hspan : spanUnsigned source = some (literal, isFloat, after)) :
    after.length < source.length := by
  rw [spanUnsigned] at hspan
  cases hinteger : spanInteger source with
  | none => simp [hinteger] at hspan
  | some parts =>
      obtain ⟨integer, afterInteger⟩ := parts
      have hlength := length_spanInteger hinteger
      have hfraction := length_spanFraction_le afterInteger
      have hexponent := length_spanExponent_le (spanFraction afterInteger).2
      simp only [hinteger, Option.some.injEq, Prod.mk.injEq] at hspan
      obtain ⟨-, -, rfl⟩ := hspan
      omega

theorem length_spanNumber {source literal after : Text} {isFloat : Bool}
    (hspan : spanNumber source = some (literal, isFloat, after)) :
    after.length < source.length := by
  cases source with
  | nil => simp [spanNumber] at hspan
  | cons code rest =>
      rw [spanNumber] at hspan
      split at hspan
      · cases hunsigned : spanUnsigned rest with
        | none => simp [hunsigned] at hspan
        | some parts =>
            have hlength := length_spanUnsigned hunsigned
            simp only [hunsigned, Option.some.injEq, Prod.mk.injEq] at hspan
            obtain ⟨-, -, rfl⟩ := hspan
            exact Nat.lt_succ_of_lt hlength
      · exact length_spanUnsigned hspan

theorem length_stripLiteral {literal source after : Text}
    (hliteral : literal ≠ [])
    (hstrip : stripLiteral literal source = some after) :
    after.length < source.length := by
  rw [stripLiteral] at hstrip
  split at hstrip
  case isTrue hprefix =>
    have hlength := (List.isPrefixOf_iff_prefix.mp hprefix).length_le
    have hpos := List.length_pos_iff.mpr hliteral
    rw [← Option.some.inj hstrip, List.length_drop]
    omega
  case isFalse => simp at hstrip

section Scans

variable {F D : Type} {format : FloatFormat F}

/-- A literal that stands for one value consumes its own text. -/
theorem stripLiteral_spec {literal source after : Text}
    {literalValue value : Value F D} (hliteral : literal ≠ [])
    (hdistinct : Distinct literalValue)
    (hscan : ((stripLiteral literal source).map fun after =>
      (literalValue, after)) = some (value, after)) :
    after.length < source.length ∧ Distinct value := by
  obtain ⟨rest, hstrip, hpair⟩ := Option.map_eq_some_iff.mp hscan
  obtain ⟨rfl, rfl⟩ := Prod.mk.inj hpair
  exact ⟨length_stripLiteral hliteral hstrip, hdistinct⟩

theorem scanNumber_spec {source after : Text} {value : Value F D}
    (hscan : scanNumber format source = some (value, after)) :
    after.length < source.length ∧ Distinct value := by
  rw [scanNumber] at hscan
  split at hscan
  · simp at hscan
  · next hspan =>
      obtain ⟨rfl, rfl⟩ := Prod.mk.inj (Option.some.inj hscan)
      exact ⟨length_spanNumber hspan, trivial⟩
  · next hspan =>
      obtain ⟨number, -, hpair⟩ := Option.map_eq_some_iff.mp hscan
      obtain ⟨rfl, rfl⟩ := Prod.mk.inj hpair
      exact ⟨length_spanNumber hspan, trivial⟩

theorem scanScalar_spec {source after : Text} {value : Value F D}
    (hscan : scanScalar format source = some (value, after)) :
    after.length < source.length ∧ Distinct value := by
  cases source with
  | nil => simp [scanScalar] at hscan
  | cons code rest =>
      rw [scanScalar] at hscan
      split at hscan
      · exact stripLiteral_spec (by decide) (by trivial) hscan
      split at hscan
      · exact stripLiteral_spec (by decide) (by trivial) hscan
      split at hscan
      · exact stripLiteral_spec (by decide) (by trivial) hscan
      split at hscan
      · exact stripLiteral_spec (by decide) (by trivial) hscan
      split at hscan
      · exact stripLiteral_spec (by decide) (by trivial) hscan
      split at hscan
      · next hstrip =>
          obtain ⟨rfl, rfl⟩ := Prod.mk.inj (Option.some.inj hscan)
          exact ⟨length_stripLiteral (by decide) hstrip, trivial⟩
      · exact scanNumber_spec hscan

/-- More is left when less is skipped. -/
theorem skipSpace_cons_length {source rest : Text} {code : CodePoint}
    (hskip : skipSpace source = code :: rest) :
    rest.length < source.length := by
  have hle := length_skipSpace_le source
  rw [hskip, List.length_cons] at hle
  exact hle

/-! ## What a scan that succeeds has found -/

theorem scanOnce_eq_some_iff {fuel : ℕ} {code : CodePoint}
    {rest after : Text} {value : Value F D} :
    scanOnce format (fuel + 1) (code :: rest) = some (value, after) ↔
      (code = point 0x22 ∧ ∃ string, scanString rest = some (string, after) ∧
        value = .str string) ∨
      (code = point 0x7B ∧ ∃ next more, skipSpace rest = next :: more ∧
        (next = point 0x7D ∧ value = .dict [] ∧ after = more ∨
          next ≠ point 0x7D ∧ ∃ items,
            scanMembers format fuel (next :: more) = some (items, after) ∧
            value = .dict (Dict.ofPairs items))) ∨
      (code = point 0x5B ∧ ∃ next more, skipSpace rest = next :: more ∧
        (next = point 0x5D ∧ value = .list [] ∧ after = more ∨
          next ≠ point 0x5D ∧ ∃ items,
            scanItems format fuel (next :: more) = some (items, after) ∧
            value = .list items)) ∨
      (code ≠ point 0x22 ∧ code ≠ point 0x7B ∧ code ≠ point 0x5B ∧
        scanScalar format (code :: rest) = some (value, after)) := by
  rw [scanOnce]
  split
  · cases scanString rest <;> grind
  · split
    · cases skipSpace rest <;> grind
    · split
      · cases skipSpace rest <;> grind
      · grind

theorem scanItems_eq_some_iff {fuel : ℕ} {source after : Text}
    {items : List (Value F D)} :
    scanItems format (fuel + 1) source = some (items, after) ↔
      ∃ item remaining code rest,
        scanOnce format fuel source = some (item, remaining) ∧
        skipSpace remaining = code :: rest ∧
        (code = point 0x5D ∧ items = [item] ∧ after = rest ∨
          code = point 0x2C ∧ ∃ others,
            scanItems format fuel (skipSpace rest) = some (others, after) ∧
            items = item :: others) := by
  rw [scanItems]
  cases scanOnce format fuel source with
  | none => simp
  | some scanned =>
      obtain ⟨item, remaining⟩ := scanned
      cases hskip : skipSpace remaining with
      | nil => grind
      | cons code rest => grind

theorem scanMembers_eq_some_iff {fuel : ℕ} {source after : Text}
    {items : List (Text × Value F D)} :
    scanMembers format (fuel + 1) source = some (items, after) ↔
      ∃ key afterKey afterColon item remaining code rest literal,
        source = point 0x22 :: literal ∧
        scanString literal = some (key, afterKey) ∧
        skipSpace afterKey = point 0x3A :: afterColon ∧
        scanOnce format fuel (skipSpace afterColon) =
          some (item, remaining) ∧
        skipSpace remaining = code :: rest ∧
        (code = point 0x7D ∧ items = [(key, item)] ∧ after = rest ∨
          code = point 0x2C ∧ ∃ others,
            scanMembers format fuel (skipSpace rest) = some (others, after) ∧
            items = (key, item) :: others) := by
  cases source with
  | nil => simp [scanMembers]
  | cons quote literal =>
      rw [scanMembers]
      cases hkey : scanString literal with
      | none => grind
      | some scanned =>
          obtain ⟨key, afterKey⟩ := scanned
          cases hcolon : skipSpace afterKey with
          | nil => grind
          | cons colon afterColon =>
              cases hitem : (scanOnce format fuel (skipSpace afterColon) :
                Option (Value F D × Text)) with
              | none => grind
              | some scanned =>
                  obtain ⟨item, remaining⟩ := scanned
                  cases hskip : skipSpace remaining with
                  | nil => grind
                  | cons code rest => grind

/-! ## The bound on the recursion -/

/-- The scan consumes something, and succeeds alike under any bound that is no
less than the number of characters it consumes. -/
def Settled {Result : Type} (scan : ℕ → Text → Option (Result × Text))
    (source : Text) (result : Result) (after : Text) : Prop :=
  after.length < source.length ∧
    ∀ bound, source.length ≤ after.length + bound →
      scan bound source = some (result, after)

omit format in
theorem Settled.of_succ {Result : Type}
    {scan : ℕ → Text → Option (Result × Text)} {source after : Text}
    {result : Result} (hlength : after.length < source.length)
    (hscan : ∀ bound, source.length ≤ after.length + bound + 1 →
      scan (bound + 1) source = some (result, after)) :
    Settled scan source result after := by
  refine ⟨hlength, fun bound hbound => ?_⟩
  cases bound with
  | zero => omega
  | succ bound => exact hscan bound hbound

mutual

theorem scanOnce_settled :
    ∀ (fuel : ℕ) {source after : Text} {value : Value F D},
      scanOnce format fuel source = some (value, after) →
      Settled (scanOnce format) source value after
  | 0, _, _, _, hscan => by simp [scanOnce] at hscan
  | _ + 1, [], _, _, hscan => by simp [scanOnce] at hscan
  | fuel + 1, code :: rest, after, value, hscan => by
    rcases scanOnce_eq_some_iff.mp hscan with
      ⟨hquote, string, hstring, hvalue⟩ |
      ⟨hbrace, next, more, hskip, hitems⟩ |
      ⟨hbracket, next, more, hskip, hitems⟩ |
      ⟨hquote, hbrace, hbracket, hscalar⟩
    · have hlength := length_scanString hstring
      refine .of_succ (Nat.lt_succ_of_lt hlength) fun bound _ => ?_
      exact scanOnce_eq_some_iff.mpr
        (.inl ⟨hquote, string, hstring, hvalue⟩)
    · have hmore := skipSpace_cons_length hskip
      rcases hitems with ⟨hclose, hvalue, rfl⟩ | ⟨hopen, items, hitems, hvalue⟩
      · refine .of_succ (Nat.lt_succ_of_lt hmore) fun bound _ => ?_
        exact scanOnce_eq_some_iff.mpr (.inr (.inl
          ⟨hbrace, next, after, hskip, .inl ⟨hclose, hvalue, rfl⟩⟩))
      · obtain ⟨hlength, hbounds⟩ := scanMembers_settled fuel hitems
        rw [List.length_cons] at hlength hbounds
        refine .of_succ (by rw [List.length_cons]; omega) fun bound hbound => ?_
        rw [List.length_cons] at hbound
        exact scanOnce_eq_some_iff.mpr (.inr (.inl ⟨hbrace, next, more, hskip,
          .inr ⟨hopen, items, hbounds bound (by omega), hvalue⟩⟩))
    · have hmore := skipSpace_cons_length hskip
      rcases hitems with ⟨hclose, hvalue, rfl⟩ | ⟨hopen, items, hitems, hvalue⟩
      · refine .of_succ (Nat.lt_succ_of_lt hmore) fun bound _ => ?_
        exact scanOnce_eq_some_iff.mpr (.inr (.inr (.inl
          ⟨hbracket, next, after, hskip, .inl ⟨hclose, hvalue, rfl⟩⟩)))
      · obtain ⟨hlength, hbounds⟩ := scanItems_settled fuel hitems
        rw [List.length_cons] at hlength hbounds
        refine .of_succ (by rw [List.length_cons]; omega) fun bound hbound => ?_
        rw [List.length_cons] at hbound
        exact scanOnce_eq_some_iff.mpr (.inr (.inr (.inl ⟨hbracket, next, more,
          hskip, .inr ⟨hopen, items, hbounds bound (by omega), hvalue⟩⟩)))
    · refine .of_succ (scanScalar_spec hscalar).1 fun bound _ => ?_
      exact scanOnce_eq_some_iff.mpr
        (.inr (.inr (.inr ⟨hquote, hbrace, hbracket, hscalar⟩)))

theorem scanItems_settled :
    ∀ (fuel : ℕ) {source after : Text} {items : List (Value F D)},
      scanItems format fuel source = some (items, after) →
      Settled (scanItems format) source items after
  | 0, _, _, _, hscan => by simp [scanItems] at hscan
  | fuel + 1, source, after, items, hscan => by
    obtain ⟨item, remaining, code, rest, hitem, hskip, hend⟩ :=
      scanItems_eq_some_iff.mp hscan
    obtain ⟨hlength, hbounds⟩ := scanOnce_settled fuel hitem
    have hrest := skipSpace_cons_length hskip
    rcases hend with ⟨hclose, hitems, rfl⟩ | ⟨hcomma, others, hothers, hitems⟩
    · refine .of_succ (by omega) fun bound hbound => ?_
      exact scanItems_eq_some_iff.mpr ⟨item, remaining, code, after,
        hbounds bound (by omega), hskip, .inl ⟨hclose, hitems, rfl⟩⟩
    · obtain ⟨hshorter, hmore⟩ := scanItems_settled fuel hothers
      have hspaces := length_skipSpace_le rest
      refine .of_succ (by omega) fun bound hbound => ?_
      exact scanItems_eq_some_iff.mpr ⟨item, remaining, code, rest,
        hbounds bound (by omega), hskip,
        .inr ⟨hcomma, others, hmore bound (by omega), hitems⟩⟩

theorem scanMembers_settled :
    ∀ (fuel : ℕ) {source after : Text} {items : List (Text × Value F D)},
      scanMembers format fuel source = some (items, after) →
      Settled (scanMembers format) source items after
  | 0, _, _, _, hscan => by simp [scanMembers] at hscan
  | fuel + 1, source, after, items, hscan => by
    obtain ⟨key, afterKey, afterColon, item, remaining, code, rest, literal,
      rfl, hkey, hcolon, hitem, hskip, hend⟩ :=
      scanMembers_eq_some_iff.mp hscan
    have hkeyLength := length_scanString hkey
    have hcolonLength := skipSpace_cons_length hcolon
    have hvalueSpaces := length_skipSpace_le afterColon
    obtain ⟨hlength, hbounds⟩ := scanOnce_settled fuel hitem
    have hrest := skipSpace_cons_length hskip
    rcases hend with ⟨hclose, hitems, rfl⟩ | ⟨hcomma, others, hothers, hitems⟩
    · refine .of_succ (by rw [List.length_cons]; omega) fun bound hbound => ?_
      rw [List.length_cons] at hbound
      exact scanMembers_eq_some_iff.mpr ⟨key, afterKey, afterColon, item,
        remaining, code, after, literal, rfl, hkey, hcolon,
        hbounds bound (by omega), hskip, .inl ⟨hclose, hitems, rfl⟩⟩
    · obtain ⟨hshorter, hmore⟩ := scanMembers_settled fuel hothers
      have hspaces := length_skipSpace_le rest
      refine .of_succ (by rw [List.length_cons]; omega) fun bound hbound => ?_
      rw [List.length_cons] at hbound
      exact scanMembers_eq_some_iff.mpr ⟨key, afterKey, afterColon, item,
        remaining, code, rest, literal, rfl, hkey, hcolon,
        hbounds bound (by omega), hskip,
        .inr ⟨hcomma, others, hmore bound (by omega), hitems⟩⟩

end

/-- The bound in `loads` never decides: whatever any bound accepts, it
accepts. -/
theorem loads_eq_some_iff {source : Text} {value : Value F D} :
    loads format source = some value ↔
      source.head? ≠ some (point 0xFEFF) ∧ ∃ fuel after,
        scanOnce format fuel (skipSpace source) = some (value, after) ∧
          skipSpace after = [] := by
  rw [loads]
  split
  case isTrue hmark =>
    exact iff_of_false (by simp) fun hscan => hscan.1 hmark
  case isFalse hmark =>
    constructor
    · intro hloads
      refine ⟨hmark, source.length + 1, ?_⟩
      cases hscan : scanOnce format (source.length + 1)
          (skipSpace source) with
      | none => simp [hscan] at hloads
      | some scanned =>
          obtain ⟨read, after⟩ := scanned
          simp only [hscan, Option.ite_none_right_eq_some,
            Option.some.injEq] at hloads
          obtain ⟨hend, rfl⟩ := hloads
          exact ⟨after, rfl, hend⟩
    · rintro ⟨-, fuel, after, hscan, hend⟩
      have hle := length_skipSpace_le source
      rw [(scanOnce_settled fuel hscan).2 (source.length + 1) (by omega)]
      dsimp only
      rw [if_pos hend]

/-! ## What is read has distinct keys -/

mutual

theorem distinct_scanOnce :
    ∀ (fuel : ℕ) {source after : Text} {value : Value F D},
      scanOnce format fuel source = some (value, after) → Distinct value
  | 0, _, _, _, hscan => by simp [scanOnce] at hscan
  | _ + 1, [], _, _, hscan => by simp [scanOnce] at hscan
  | fuel + 1, code :: rest, after, value, hscan => by
    rcases scanOnce_eq_some_iff.mp hscan with
      ⟨-, string, -, rfl⟩ | ⟨-, next, more, -, hitems⟩ |
      ⟨-, next, more, -, hitems⟩ | ⟨-, -, -, hscalar⟩
    · trivial
    · rcases hitems with ⟨-, rfl, -⟩ | ⟨-, items, hitems, rfl⟩
      · exact ⟨List.nodup_nil, trivial⟩
      · have hdistinct := distinct_scanMembers fuel hitems
        refine ⟨Dict.nodup_ofPairs items, ?_⟩
        rw [distinctMembers_iff] at hdistinct ⊢
        intro entry hentry
        exact hdistinct entry (Dict.mem_of_mem_ofPairs hentry)
    · rcases hitems with ⟨-, rfl, -⟩ | ⟨-, items, hitems, rfl⟩
      · trivial
      · exact distinct_scanItems fuel hitems
    · exact (scanScalar_spec hscalar).2

theorem distinct_scanItems :
    ∀ (fuel : ℕ) {source after : Text} {items : List (Value F D)},
      scanItems format fuel source = some (items, after) →
      DistinctItems items
  | 0, _, _, _, hscan => by simp [scanItems] at hscan
  | fuel + 1, source, after, items, hscan => by
    obtain ⟨item, remaining, code, rest, hitem, -, hend⟩ :=
      scanItems_eq_some_iff.mp hscan
    have hdistinct := distinct_scanOnce fuel hitem
    rcases hend with ⟨-, rfl, -⟩ | ⟨-, others, hothers, rfl⟩
    · exact ⟨hdistinct, trivial⟩
    · exact ⟨hdistinct, distinct_scanItems fuel hothers⟩

theorem distinct_scanMembers :
    ∀ (fuel : ℕ) {source after : Text} {items : List (Text × Value F D)},
      scanMembers format fuel source = some (items, after) →
      DistinctMembers items
  | 0, _, _, _, hscan => by simp [scanMembers] at hscan
  | fuel + 1, source, after, items, hscan => by
    obtain ⟨key, afterKey, afterColon, item, remaining, code, rest, literal,
      -, -, -, hitem, -, hend⟩ := scanMembers_eq_some_iff.mp hscan
    have hdistinct := distinct_scanOnce fuel hitem
    rcases hend with ⟨-, rfl, -⟩ | ⟨-, others, hothers, rfl⟩
    · exact ⟨hdistinct, trivial⟩
    · exact ⟨hdistinct, distinct_scanMembers fuel hothers⟩

end

theorem distinct_loads {source : Text} {value : Value F D}
    (hloads : loads format source = some value) : Distinct value := by
  obtain ⟨-, fuel, after, hscan, -⟩ := loads_eq_some_iff.mp hloads
  exact distinct_scanOnce fuel hscan

end Scans

end UTTG.Python
