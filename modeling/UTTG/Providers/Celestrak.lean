import UTTG.Core.Loops
import UTTG.Ingestion.Catalog
import UTTG.Python.Whitespace

/-!
# TLE catalogs

`parse_tle_catalog` finds the element sets of a text by looking ahead from one
line to the next two.  Which sets it finds depends on neighbouring lines only:
a line that starts with `1 ` and the line after it, where that starts with `2 `,
are one set, and the line before them is its name unless it ends another set.
-/

namespace UTTG.Celestrak

open Python Ingestion UTTG.Loops
open Launches (Instant)

/-- What the code reads of a `Satrec`. -/
structure Satrec (F : Type) where
  error : ℤ
  satnum : ℤ
  jdsatepoch : F
  jdsatepochF : F
  inclo : F
  nodeo : F
  ecco : F
  argpo : F
  mo : F
  noKozai : F

/-- `sgp4` and the float operations that the code uses. -/
structure Library (F : Type) where
  /-- `Satrec.twoline2rv`; `none` is a `ValueError`. -/
  twoline2rv : Text → Text → Option (Satrec F)
  degrees : F → F
  /-- `_REVOLUTIONS_PER_DAY_PER_RADIAN_PER_MINUTE`. -/
  revolutionsPerDay : F
  /-- `_JULIAN_UNIX_EPOCH`. -/
  julianUnixEpoch : F
  add : F → F → F
  sub : F → F → F
  mul : F → F → F
  /-- `datetime(1970, 1, 1, tzinfo=UTC) + timedelta(days=days)`; `none` where it
  raises, as for a date beyond the year 9999. -/
  afterUnixEpoch : F → Option Instant

variable {F : Type} (runtime : Runtime F) (library : Library F)

/-- `_epoch`; `none` where it raises. -/
def epochOf (satellite : Satrec F) : Option Instant :=
  library.afterUnixEpoch (library.add
    (library.sub satellite.jdsatepoch library.julianUnixEpoch)
    satellite.jdsatepochF)

/-- `name`, `line1` and `line2` of one turn of the loop. -/
structure ElementSet where
  name : Text
  line1 : Text
  line2 : Text
  deriving DecidableEq

/-- `[line.rstrip() for line in text.splitlines() if line.strip()]`. -/
def catalogLines (string : Text) : List Text :=
  ((splitlines string).filter fun line => strip line ≠ []).map rstrip

/-- `lines[index].startswith("1 ") and lines[index + 1].startswith("2 ")`. -/
def isPair (first second : Text) : Bool :=
  startswith "1 " first && startswith "2 " second

/-- `lines[index].removeprefix("0 ").strip()`. -/
def nameOf (line : Text) : Text := strip ( removeprefix "0 " line)

/-- The sets that the loop finds, from the line at its index on. -/
def elementSets : List Text → List ElementSet
  | [] | [_] => []
  | first :: second :: rest =>
      if isPair first second then ⟨[], first, second⟩ :: elementSets rest
      else
        match rest with
        | [] => []
        | third :: later =>
            if isPair second third then
              ⟨nameOf first, second, third⟩ :: elementSets later
            else elementSets (second :: third :: later)

/-- What the loop does with a set: `none` where it raises, and `some none` where
the set is skipped. -/
def recordOf (set : ElementSet) : Option (Option (TwoLineElementSet F)) :=
  match library.twoline2rv set.line1 set.line2 with
  | none => some none
  | some satellite =>
      if satellite.error ≠ 0 ∨ satellite.satnum ≤ 0 then some none
      else do
        let cosparId ← internationalDesignator runtime set.line1
        let epoch ← epochOf library satellite
        return some {
          noradId := satellite.satnum
          name := if set.name = [] then signed satellite.satnum else set.name
          cosparId := cosparId
          epoch := epoch
          inclination := library.degrees satellite.inclo
          rightAscension := library.degrees satellite.nodeo
          eccentricity := satellite.ecco
          argumentOfPerigee := library.degrees satellite.argpo
          meanAnomaly := library.degrees satellite.mo
          meanMotion :=
            library.mul satellite.noKozai library.revolutionsPerDay
          tleLine1 := set.line1
          tleLine2 := set.line2 }

/-- `parse_tle_catalog`; `none` where it raises. -/
def parseTleCatalog (string : Text) : Option (List (TwoLineElementSet F)) :=
  ((elementSets (catalogLines string)).mapM (recordOf runtime library)).map
    List.reduceOption

example : elementSets [text "A", text "1 a", text "2 a", text "1 b",
    text "2 b"] = [⟨text "A", text "1 a", text "2 a"⟩,
      ⟨[], text "1 b", text "2 b"⟩] := by
  decide

/-! ## The sets of a catalog -/

theorem startswith_two_of_one {line : Text}
    (hline : startswith "1 " line = true) : startswith "2 " line = false := by
  have htexts : text "1 " = [point 0x31, point 0x20] ∧
      text "2 " = [point 0x32, point 0x20] := by
    decide
  rw [startswith, htexts.1] at hline
  rw [startswith, htexts.2]
  cases line with
  | nil => simp at hline
  | cons code rest =>
      rw [List.isPrefixOf_cons_cons, Bool.and_eq_true, beq_iff_eq] at hline
      rw [List.isPrefixOf_cons_cons, ← hline.1]
      rfl

/-- No line is the second of one pair and the first of the next. -/
theorem not_isPair_of_isPair {first second third : Text}
    (hpair : isPair first second = true) : isPair second third = false := by
  rw [isPair, Bool.and_eq_true] at hpair
  rw [isPair, Bool.and_eq_false_iff]
  left
  by_contra hopens
  have hcloses := startswith_two_of_one (Bool.eq_true_of_not_eq_false hopens)
  exact absurd (hpair.2.symm.trans hcloses) (by simp)

/-- The name that the lines before a set give it. -/
def precedingName (before : List Text) : Text :=
  match before.reverse with
  | [] => []
  | [last] => nameOf last
  | last :: opener :: _ => if isPair opener last then [] else nameOf last

theorem precedingName_cons {first : Text} {before : List Text}
    (hne : before ≠ [])
    (hpair : ∀ last, before = [last] → isPair first last = false) :
    precedingName (first :: before) = precedingName before := by
  unfold precedingName
  rw [List.reverse_cons]
  cases hreverse : before.reverse with
  | nil => exact absurd (List.reverse_eq_nil_iff.mp hreverse) hne
  | cons last earlier =>
      cases earlier with
      | nil =>
          have hbefore : before = [last] := by
            rw [← List.reverse_reverse before, hreverse]
            rfl
          simp [hpair last hbefore]
      | cons opener others => rfl

theorem precedingName_pair {first second : Text} {before : List Text}
    (hpair : isPair first second = true) :
    precedingName (first :: second :: before) = precedingName before := by
  cases before with
  | nil => simp [precedingName, hpair]
  | cons third others =>
      rw [precedingName_cons (List.cons_ne_nil _ _) (by simp)]
      apply precedingName_cons (List.cons_ne_nil _ _)
      intro last hlast
      exact (List.cons.inj hlast).1 ▸ not_isPair_of_isPair hpair

/-- The name and the lines of a set of the catalog. -/
def IsSetOf (lines : List Text) (set : ElementSet) : Prop :=
  ∃ before after, lines = before ++ set.line1 :: set.line2 :: after ∧
    isPair set.line1 set.line2 = true ∧ set.name = precedingName before

theorem isSetOf_pair {first second : Text} {rest : List Text}
    (hpair : isPair first second = true) (set : ElementSet) :
    IsSetOf (first :: second :: rest) set ↔
      set = ⟨[], first, second⟩ ∨ IsSetOf rest set := by
  constructor
  · rintro ⟨before, after, hlines, hset, hname⟩
    rcases before with _ | ⟨one, _ | ⟨two, others⟩⟩
    · simp only [List.nil_append, List.cons.injEq] at hlines
      obtain ⟨rfl, rfl, -⟩ := hlines
      left
      cases set
      simp_all [precedingName]
    · simp only [List.cons_append, List.nil_append, List.cons.injEq] at hlines
      obtain ⟨-, rfl, -⟩ := hlines
      have hnot : isPair set.line1 set.line2 = false :=
        not_isPair_of_isPair hpair
      exact absurd (hset.symm.trans hnot) (by simp)
    · simp only [List.cons_append, List.cons.injEq] at hlines
      obtain ⟨rfl, rfl, hrest⟩ := hlines
      rw [precedingName_pair hpair] at hname
      exact .inr ⟨others, after, hrest, hset, hname⟩
  · rintro (rfl | ⟨before, after, rfl, hset, hname⟩)
    · exact ⟨[], rest, rfl, hpair, rfl⟩
    · refine ⟨first :: second :: before, after, rfl, hset, ?_⟩
      rw [precedingName_pair hpair]
      exact hname

theorem isSetOf_named {first second third : Text} {later : List Text}
    (hfirst : isPair first second = false)
    (hpair : isPair second third = true) (set : ElementSet) :
    IsSetOf (first :: second :: third :: later) set ↔
      set = ⟨nameOf first, second, third⟩ ∨ IsSetOf later set := by
  have hname : ∀ before : List Text,
      precedingName (first :: second :: third :: before) =
        precedingName before := by
    intro before
    rw [precedingName_cons (List.cons_ne_nil _ _) (by simp),
      precedingName_pair hpair]
  constructor
  · rintro ⟨before, after, hlines, hset, hnamed⟩
    rcases before with _ | ⟨one, _ | ⟨two, _ | ⟨three, others⟩⟩⟩
    · simp only [List.nil_append, List.cons.injEq] at hlines
      obtain ⟨rfl, rfl, -⟩ := hlines
      exact absurd (hset.symm.trans hfirst) (by simp)
    · simp only [List.cons_append, List.nil_append, List.cons.injEq] at hlines
      obtain ⟨rfl, rfl, rfl, -⟩ := hlines
      left
      cases set
      simp_all [precedingName]
    · simp only [List.cons_append, List.nil_append, List.cons.injEq] at hlines
      obtain ⟨-, -, rfl, -⟩ := hlines
      have hnot : isPair set.line1 set.line2 = false :=
        not_isPair_of_isPair hpair
      exact absurd (hset.symm.trans hnot) (by simp)
    · simp only [List.cons_append, List.cons.injEq] at hlines
      obtain ⟨rfl, rfl, rfl, hlater⟩ := hlines
      exact .inr ⟨others, after, hlater, hset, hnamed.trans (hname others)⟩
  · rintro (rfl | ⟨before, after, rfl, hset, hnamed⟩)
    · exact ⟨[first], later, rfl, hpair, rfl⟩
    · exact ⟨first :: second :: third :: before, after, rfl, hset,
        hnamed.trans (hname before).symm⟩

theorem isSetOf_skip {first second : Text} {rest : List Text}
    (hfirst : isPair first second = false)
    (hsecond : ∀ third later, rest = third :: later →
      isPair second third = false) (set : ElementSet) :
    IsSetOf (first :: second :: rest) set ↔
      IsSetOf (second :: rest) set := by
  -- A set of the rest has a line before it, to which the first line adds
  -- nothing.
  have hname : ∀ before after, second :: rest =
      before ++ set.line1 :: set.line2 :: after →
      isPair set.line1 set.line2 = true →
      precedingName (first :: before) = precedingName before := by
    intro before after hlines hset
    cases before with
    | nil =>
        simp only [List.nil_append, List.cons.injEq] at hlines
        have hnot := hsecond set.line2 after hlines.2
        rw [hlines.1] at hnot
        exact absurd (hset.symm.trans hnot) (by simp)
    | cons one others =>
        refine precedingName_cons (List.cons_ne_nil _ _) fun last hlast => ?_
        rw [← (List.cons.inj hlast).1, ← (List.cons.inj hlines).1]
        exact hfirst
  constructor
  · rintro ⟨before, after, hlines, hset, hnamed⟩
    cases before with
    | nil =>
        simp only [List.nil_append, List.cons.injEq] at hlines
        obtain ⟨rfl, rfl, -⟩ := hlines
        exact absurd (hset.symm.trans hfirst) (by simp)
    | cons one others =>
        simp only [List.cons_append, List.cons.injEq] at hlines
        obtain ⟨rfl, hrest⟩ := hlines
        exact ⟨others, after, hrest, hset,
          hnamed.trans (hname others after hrest hset)⟩
  · rintro ⟨before, after, hlines, hset, hnamed⟩
    refine ⟨first :: before, after, ?_, hset,
      hnamed.trans (hname before after hlines hset).symm⟩
    rw [hlines]
    rfl

theorem not_isSetOf_of_length {lines : List Text} (hlines : lines.length < 2)
    (set : ElementSet) : ¬IsSetOf lines set := by
  rintro ⟨before, after, rfl, -⟩
  simp only [List.length_append, List.length_cons] at hlines
  omega

/-- The loop finds exactly the pairs of neighbouring lines, each with the name
that the line before it gives. -/
theorem mem_elementSets_iff (lines : List Text) (set : ElementSet) :
    set ∈ elementSets lines ↔ IsSetOf lines set := by
  fun_induction elementSets lines with
  | case1 =>
      exact iff_of_false List.not_mem_nil
        (not_isSetOf_of_length (by simp) set)
  | case2 line =>
      exact iff_of_false List.not_mem_nil
        (not_isSetOf_of_length (by simp) set)
  | case3 first second rest hpair ih =>
      rw [List.mem_cons, ih, isSetOf_pair hpair]
  | case4 first second hpair =>
      rw [isSetOf_skip (Bool.eq_false_of_not_eq_true hpair) (by simp)]
      exact iff_of_false List.not_mem_nil
        (not_isSetOf_of_length (by simp) set)
  | case5 first second hpair third later hnext ih =>
      rw [List.mem_cons, ih,
        isSetOf_named (Bool.eq_false_of_not_eq_true hpair) hnext]
  | case6 first second hpair third later hnext ih =>
      rw [ih, isSetOf_skip (Bool.eq_false_of_not_eq_true hpair)]
      rintro _ _ hlater
      rw [← (List.cons.inj hlater).1]
      exact Bool.eq_false_of_not_eq_true hnext

/-! ## Records -/

section Records

variable {runtime library}

/-- The object of a set that the loop does not skip. -/
def accepted (library : Library F) (line1 line2 : Text) :
    Option (Satrec F) :=
  (library.twoline2rv line1 line2).filter fun satellite =>
    satellite.error = 0 ∧ 0 < satellite.satnum

/-- What becomes of a set: it is skipped, the loop raises, or the set gives a
record. -/
theorem recordOf_cases (set : ElementSet) :
    (accepted library set.line1 set.line2 = none ∧
      recordOf runtime library set = some none) ∨
    ∃ satellite, accepted library set.line1 set.line2 = some satellite ∧
      ((recordOf runtime library set = none ∧
        ((internationalDesignator runtime set.line1).isSome = false ∨
          (epochOf library satellite).isSome = false)) ∨
      ((internationalDesignator runtime set.line1).isSome = true ∧
        (epochOf library satellite).isSome = true ∧
        ∃ record, recordOf runtime library set = some (some record) ∧
          record.noradId = satellite.satnum ∧
          record.name = (if set.name = [] then signed satellite.satnum
            else set.name) ∧
          record.tleLine1 = set.line1 ∧ record.tleLine2 = set.line2)) := by
  unfold recordOf accepted
  cases library.twoline2rv set.line1 set.line2 with
  | none => exact .inl ⟨rfl, rfl⟩
  | some satellite =>
      by_cases hskipped : satellite.error ≠ 0 ∨ satellite.satnum ≤ 0
      · refine .inl ⟨?_, if_pos hskipped⟩
        rw [Option.filter_some_eq_none, decide_eq_true_eq]
        omega
      · refine .inr ⟨satellite, ?_, ?_⟩
        · rw [Option.filter_some_eq_some, decide_eq_true_eq]
          omega
        · simp only [if_neg hskipped]
          cases internationalDesignator runtime set.line1 with
          | none => exact .inl ⟨rfl, .inl rfl⟩
          | some cosparId =>
              cases epochOf library satellite with
              | none => exact .inl ⟨rfl, .inr rfl⟩
              | some epoch =>
                  exact .inr ⟨rfl, rfl, _, rfl, rfl, rfl, rfl, rfl⟩

end Records

/-! ## The launch year -/

/-- `raw` in `_international_designator`. -/
def rawDesignator (line1 : Text) : Text :=
  runtime.strip ((line1.drop 9).take 8)

/-- Where the designator starts with two digits, `int` reads both. -/
def YearConverts (line1 : Text) : Prop :=
  5 ≤ (rawDesignator runtime line1).length →
    runtime.isdigit ((rawDesignator runtime line1).take 2) = true →
    ∀ code ∈ (rawDesignator runtime line1).take 2,
      (runtime.decimalValue code).isSome = true

/-- `_international_designator` raises for digits that `int` does not read. -/
theorem isSome_internationalDesignator_iff (line1 : Text) :
    (internationalDesignator runtime line1).isSome = true ↔
      YearConverts runtime line1 := by
  unfold internationalDesignator YearConverts rawDesignator
  dsimp only
  generalize runtime.strip ((line1.drop 9).take 8) = raw
  split
  case isTrue hnone =>
    refine iff_of_true rfl fun hlength hdigits => ?_
    rcases hnone with hshort | hother
    · omega
    · exact absurd (hdigits.symm.trans hother) (by simp)
  case isFalse hyear =>
    push Not at hyear
    have hdigits : runtime.isdigit (raw.take 2) = true :=
      Bool.eq_true_of_not_eq_false hyear.2
    have hlength : (raw.take 2).length = 2 := by
      rw [List.length_take]
      omega
    have hguard : ¬((raw.take 2).isEmpty = true ∨
        maxDigits < (raw.take 2).length) := by
      rw [hlength, List.isEmpty_iff_length_eq_zero, hlength]
      decide
    have hint : (runtime.int (.str (raw.take 2))).isSome = true ↔
        ∀ code ∈ raw.take 2, (runtime.decimalValue code).isSome = true := by
      rw [← isSome_mapM_iff, Runtime.int, if_neg hguard, Option.isSome_map]
    have hbind : (do
        let year ← runtime.int (.str (raw.take 2))
        let century := if 57 ≤ year then text "19" else text "20"
        return some (century ++ raw.take 2 ++ text "-" ++
          raw.drop 2) : Option (Option Text)).isSome =
            (runtime.int (.str (raw.take 2))).isSome := by
      cases runtime.int (.str (raw.take 2)) with
      | none => rfl
      | some year => rfl
    rw [hbind, hint]
    exact ⟨fun hall _ _ => hall, fun hall => hall hyear.1 hdigits⟩

/-! ## Two objects -/

/-- What the catalogue tells of a record. -/
def entryOf (record : TwoLineElementSet F) : ℤ × Text × Text × Text :=
  (record.noradId, record.name, record.tleLine1, record.tleLine2)

/-- The number in columns 3 to 7 of a line. -/
def columnNumber (line : Text) : Option ℤ :=
  unitRuntime.int (.str ((line.drop 2).take 5))

/-- `sgp4` on sets of any elements, whose epochs are the given one. -/
def unitLibrary (epoch : Option Instant) : Library Unit where
  twoline2rv line1 _ := (columnNumber line1).map fun number =>
    ⟨0, number, (), (), (), (), (), (), (), ()⟩
  degrees := id
  revolutionsPerDay := ()
  julianUnixEpoch := ()
  add _ _ := ()
  sub _ _ := ()
  mul _ _ := ()
  afterUnixEpoch _ := epoch

def vanguard1 : Text := text
  "1 00005U 58002B   00179.78495062  .00000023  00000-0  28098-4 0  4753"

def vanguard2 : Text := text
  "2 00005  34.2682 348.7242 1859667 331.7664  19.3264 10.82419157413667"

def zarya1 : Text := text
  "1 25544U 98067A   08264.51782528 -.00002182  00000-0 -11606-4 0  2927"

def zarya2 : Text := text
  "2 25544  51.6416 247.4627 0006703 130.5360 325.0288 15.72125391563537"

theorem unitLibrary_number (epoch : Option Instant) (line1 line2 : Text)
    (satellite : Satrec Unit)
    (hsatellite : (unitLibrary epoch).twoline2rv line1 line2 =
      some satellite) : columnNumber line1 = some satellite.satnum := by
  obtain ⟨number, hnumber, rfl⟩ := Option.map_eq_some_iff.mp hsatellite
  exact hnumber

end UTTG.Celestrak
