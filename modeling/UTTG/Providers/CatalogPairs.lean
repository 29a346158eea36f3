import UTTG.Core.Loops
import UTTG.Providers.Celestrak

/-!
# Records of a damaged catalog

Two neighbouring lines that look like a set are read as one, also where lines
were lost and they belong to two objects.  What each pair of neighbouring lines
must satisfy for the catalog to be read without an exception, with both lines of
every record about one object and with names that are not element lines, is a
condition on these lines and the ones before them.
-/

namespace UTTG.Celestrak

open Python Ingestion UTTG.Loops

/-- A line that the loop takes for a part of an element set. -/
def IsElementLine (line : Text) : Prop :=
  startswith "1 " line = true ∨ startswith "2 " line = true

variable {F : Type} (catalogNumber : Text → Option ℤ)

/-- Both lines carry the number of the record, and its name is not an element
line. -/
structure Consistent (record : TwoLineElementSet F) : Prop where
  line1 : catalogNumber record.tleLine1 = some record.noradId
  line2 : catalogNumber record.tleLine2 = some record.noradId
  name : ¬IsElementLine record.name

variable (runtime : Runtime F) (library : Library F)

/-- `parse_tle_catalog` returns consistent records. -/
def ReturnsConsistent (string : Text) : Prop :=
  ∃ records, parseTleCatalog runtime library string = some records ∧
    ∀ record ∈ records, Consistent catalogNumber record

/-- What the lines of a set that is not skipped must satisfy. -/
structure PairConsistent (name line1 line2 : Text) (satellite : Satrec F) :
    Prop where
  year : YearConverts runtime line1
  epoch : (epochOf library satellite).isSome = true
  number : catalogNumber line2 = catalogNumber line1
  name : ¬IsElementLine name

/-- Every two neighbouring lines that look like a set, and that `sgp4` accepts,
are consistent. -/
def PairsConsistent (lines : List Text) : Prop :=
  ∀ before line1 line2 after, lines = before ++ line1 :: line2 :: after →
    isPair line1 line2 = true →
    ∀ satellite, accepted library line1 line2 = some satellite →
      PairConsistent catalogNumber runtime library (precedingName before)
        line1 line2 satellite

/-- `sgp4` takes the number of every such set from its first line. -/
def NumbersTaken (lines : List Text) : Prop :=
  ∀ before line1 line2 after, lines = before ++ line1 :: line2 :: after →
    isPair line1 line2 = true →
    ∀ satellite, accepted library line1 line2 = some satellite →
      catalogNumber line1 = some satellite.satnum

/-! ## Names -/

theorem mem_of_startswith {start : String} {string : Text}
    (hstart : startswith start string = true) {code : CodePoint}
    (hcode : code ∈ text start) : code ∈ string :=
  (List.isPrefixOf_iff_prefix.mp hstart).subset hcode

/-- The number that stands for a missing name has no space. -/
theorem not_isElementLine_signed (number : ℤ) :
    ¬IsElementLine (signed number) := by
  have hspace : point 0x20 ∉ signed number := by
    intro hmem
    rcases mem_signed hmem with hsign | hdigit
    · exact absurd hsign (by decide)
    · exact absurd hdigit (by decide)
  rintro (hline | hline)
  · exact hspace (mem_of_startswith hline (by decide))
  · exact hspace (mem_of_startswith hline (by decide))

theorem isElementLine_name_iff (name : Text) (number : ℤ) :
    IsElementLine (if name = [] then signed number else name) ↔
      IsElementLine name := by
  split
  case isTrue hname =>
    subst hname
    exact iff_of_false (not_isElementLine_signed number)
      (by unfold IsElementLine; decide)
  case isFalse => exact Iff.rfl

/-! ## Sets and records -/

variable {catalogNumber runtime library}

/-- A set gives no exception and no inconsistent record exactly when its lines
are consistent and have the number that is read, or it is skipped. -/
theorem recordOf_consistent_iff (set : ElementSet) :
    ((recordOf runtime library set).isSome = true ∧
      ∀ record, recordOf runtime library set = some (some record) →
        Consistent catalogNumber record) ↔
      ∀ satellite, accepted library set.line1 set.line2 = some satellite →
        PairConsistent catalogNumber runtime library set.name set.line1
            set.line2 satellite ∧
          catalogNumber set.line1 = some satellite.satnum := by
  rcases recordOf_cases set with ⟨hskipped, hrecord⟩ |
    ⟨satellite, haccepted, ⟨hrecord, hraises⟩ |
      ⟨hyear, hepoch, record, hrecord, hnoradId, hname, hline1, hline2⟩⟩
  · rw [hrecord, hskipped]
    simp
  · rw [hrecord]
    refine iff_of_false (by simp) fun hconsistent => ?_
    obtain ⟨hpair, -⟩ := hconsistent satellite haccepted
    rcases hraises with hyear | hepoch
    · have hconverts := (isSome_internationalDesignator_iff runtime
        set.line1).mpr hpair.year
      exact absurd (hconverts.symm.trans hyear) (by simp)
    · exact absurd (hpair.epoch.symm.trans hepoch) (by simp)
  · rw [hrecord]
    constructor
    · rintro ⟨-, hconsistent⟩ other hother
      obtain rfl := Option.some.inj (haccepted.symm.trans hother)
      have hrecorded := hconsistent record rfl
      have hfirst : catalogNumber set.line1 = some satellite.satnum := by
        rw [← hline1, hrecorded.line1, hnoradId]
      refine ⟨⟨(isSome_internationalDesignator_iff runtime set.line1).mp hyear,
        hepoch, ?_, ?_⟩, hfirst⟩
      · rw [hfirst, ← hnoradId, ← hrecorded.line2, hline2]
      · rw [← isElementLine_name_iff set.name satellite.satnum, ← hname]
        exact hrecorded.name
    · intro hpairs
      obtain ⟨hpair, hfirst⟩ := hpairs satellite haccepted
      refine ⟨rfl, fun other hother => ?_⟩
      obtain rfl := Option.some.inj (Option.some.inj hother)
      refine ⟨?_, ?_, ?_⟩
      · rw [hline1, hnoradId, hfirst]
      · rw [hline2, hnoradId, hpair.number, hfirst]
      · rw [hname, isElementLine_name_iff]
        exact hpair.name

theorem returnsConsistent_iff_taken (string : Text) :
    ReturnsConsistent catalogNumber runtime library string ↔
      PairsConsistent catalogNumber runtime library (catalogLines string) ∧
        NumbersTaken catalogNumber library (catalogLines string) := by
  unfold ReturnsConsistent parseTleCatalog
  rw [exists_mapM_reduceOption_iff]
  simp only [recordOf_consistent_iff, mem_elementSets_iff]
  constructor
  · intro hsets
    have hpairs (before : List Text) (line1 line2 : Text) (after : List Text)
        (hlines : catalogLines string = before ++ line1 :: line2 :: after)
        (hpair : isPair line1 line2 = true) :=
      hsets ⟨precedingName before, line1, line2⟩
        ⟨before, after, hlines, hpair, rfl⟩
    exact ⟨fun before line1 line2 after hlines hpair satellite haccepted =>
        (hpairs before line1 line2 after hlines hpair satellite haccepted).1,
      fun before line1 line2 after hlines hpair satellite haccepted =>
        (hpairs before line1 line2 after hlines hpair satellite haccepted).2⟩
  · rintro ⟨hpairs, htaken⟩ ⟨name, line1, line2⟩
      ⟨before, after, hlines, hpair, rfl⟩ satellite haccepted
    exact ⟨hpairs before line1 line2 after hlines hpair satellite haccepted,
      htaken before line1 line2 after hlines hpair satellite haccepted⟩

/-- A text is read without an exception into consistent records exactly when its
neighbouring lines are consistent and `sgp4` takes their numbers from the first
of them; so the first condition decides if it always does. -/
theorem returnsConsistent_iff (string : Text) :
    (ReturnsConsistent catalogNumber runtime library string ↔
      PairsConsistent catalogNumber runtime library (catalogLines string) ∧
        NumbersTaken catalogNumber library (catalogLines string)) ∧
    ((∀ line1 line2 satellite,
        library.twoline2rv line1 line2 = some satellite →
          catalogNumber line1 = some satellite.satnum) →
      (ReturnsConsistent catalogNumber runtime library string ↔
        PairsConsistent catalogNumber runtime library
          (catalogLines string))) := by
  refine ⟨returnsConsistent_iff_taken string, fun hnumber => ?_⟩
  have htaken : NumbersTaken catalogNumber library (catalogLines string) :=
    fun _ line1 line2 _ _ _ satellite haccepted =>
      hnumber line1 line2 satellite (Option.filter_eq_some_iff.mp haccepted).1
  rw [returnsConsistent_iff_taken, and_iff_left htaken]

/-! ## Lost lines -/

/-- What the records show of a catalog. -/
theorem returnsConsistent_iff_entries (string : Text) :
    ReturnsConsistent catalogNumber runtime library string ↔
      ∃ entries, (parseTleCatalog runtime library string).map
          (List.map entryOf) = some entries ∧
        ∀ entry ∈ entries, catalogNumber entry.2.2.1 = some entry.1 ∧
          catalogNumber entry.2.2.2 = some entry.1 ∧
          ¬IsElementLine entry.2.1 := by
  constructor
  · rintro ⟨records, hrecords, hconsistent⟩
    refine ⟨records.map entryOf, by rw [hrecords]; rfl, fun entry hentry => ?_⟩
    obtain ⟨record, hrecord, rfl⟩ := List.mem_map.mp hentry
    have hgood := hconsistent record hrecord
    exact ⟨hgood.line1, hgood.line2, hgood.name⟩
  · rintro ⟨entries, hentries, hall⟩
    obtain ⟨records, hrecords, rfl⟩ := Option.map_eq_some_iff.mp hentries
    refine ⟨records, hrecords, fun record hrecord => ?_⟩
    obtain ⟨hline1, hline2, hname⟩ :=
      hall (entryOf record) (List.mem_map_of_mem hrecord)
    exact ⟨hline1, hline2, hname⟩

instance (line : Text) : Decidable (IsElementLine line) :=
  inferInstanceAs (Decidable (_ ∨ _))

/-- A catalog of one set. -/
def wholeCatalog : Text :=
  joinLines [text "VANGUARD 1", vanguard1, vanguard2]

theorem whole_catalog_consistent :
    PairsConsistent columnNumber unitRuntime (unitLibrary (some 0))
      (catalogLines wholeCatalog) := by
  apply ((returnsConsistent_iff wholeCatalog).2 (unitLibrary_number _)).mp
  rw [returnsConsistent_iff_entries]
  refine ⟨[(5, text "VANGUARD 1", vanguard1, vanguard2)], ?_, ?_⟩
  · decide +kernel
  · decide +kernel

/-- The second line of one set and the first line of the next are lost. -/
def lostLines : Text :=
  joinLines [text "VANGUARD 1", vanguard1, zarya2]

/-- The first line of a set is lost before a set without a name. -/
def lostFirstLine : Text := joinLines [zarya2, vanguard1, vanguard2]

/-- A launch year of two superscript digits. -/
def superscriptYear : Text :=
  joinLines [vanguard1.take 9 ++ [point 0xB2, point 0xB2] ++ vanguard1.drop 11,
    vanguard2]

/-- ASCII, and the superscript two, which is a digit that `int` does not
read. -/
def superscriptRuntime : Runtime Unit :=
  { unitRuntime with
    isDigit := fun code => unitRuntime.isDigit code || code == point 0xB2 }

/-- Lost lines give a record with the lines of two objects and one with an
element line for a name, and a damaged year ends the whole catalog. -/
theorem damaged_catalogs_inconsistent :
    (parseTleCatalog unitRuntime (unitLibrary (some 0)) lostLines).map
        (List.map entryOf) =
      some [(5, text "VANGUARD 1", vanguard1, zarya2)] ∧
    (parseTleCatalog unitRuntime (unitLibrary (some 0)) lostFirstLine).map
        (List.map entryOf) = some [(5, zarya2, vanguard1, vanguard2)] ∧
    (parseTleCatalog superscriptRuntime (unitLibrary (some 0))
        superscriptYear).map (List.map entryOf) = none ∧
    ¬ReturnsConsistent columnNumber unitRuntime (unitLibrary (some 0))
        lostLines ∧
    ¬ReturnsConsistent columnNumber superscriptRuntime (unitLibrary (some 0))
        superscriptYear := by
  have hlost : (parseTleCatalog unitRuntime (unitLibrary (some 0))
      lostLines).map (List.map entryOf) =
        some [(5, text "VANGUARD 1", vanguard1, zarya2)] := by
    decide +kernel
  have hyear : (parseTleCatalog superscriptRuntime (unitLibrary (some 0))
      superscriptYear).map (List.map entryOf) = none := by
    decide +kernel
  refine ⟨hlost, by decide +kernel, hyear, ?_, ?_⟩
  · rw [returnsConsistent_iff_entries, hlost]
    rintro ⟨entries, hentries, hall⟩
    obtain rfl := Option.some.inj hentries
    have hnumbers := (hall _ (List.mem_singleton_self _)).2.1
    exact absurd hnumbers (by decide +kernel)
  · rw [returnsConsistent_iff_entries, hyear]
    rintro ⟨entries, hentries, -⟩
    simp at hentries

end UTTG.Celestrak
