import UTTG.Core.Loops
import UTTG.Providers.Celestrak

/-!
# Catalogs as sequences of blocks

A provider writes a catalog block by block: a set with its name, a set without
one, or a line that belongs to no set.  The loop finds the sets of the blocks
again, however the blocks follow one another, unless a line that belongs to no
set comes directly before a set without a name.
-/

namespace UTTG.Celestrak

open Python Ingestion UTTG.Loops

variable {F : Type}

/-- The lines of a catalog that belong together. -/
inductive Block where
  | named (name line1 line2 : Text)
      (opens : startswith "1 " (rstrip line1) = true)
      (closes : startswith "2 " (rstrip line2) = true)
  | unnamed (line1 line2 : Text)
      (opens : startswith "1 " (rstrip line1) = true)
      (closes : startswith "2 " (rstrip line2) = true)
  | junk (line : Text)
      (notFirst : startswith "1 " (rstrip line) = false)
      (notSecond : startswith "2 " (rstrip line) = false)

namespace Block

def lines : Block → List Text
  | named name line1 line2 _ _ => [name, line1, line2]
  | unnamed line1 line2 _ _ => [line1, line2]
  | junk line _ _ => [line]

/-- The two lines of a set, without the white space at their ends. -/
def elements : Block → Option (Text × Text)
  | named _ line1 line2 _ _ | unnamed line1 line2 _ _ =>
      some (rstrip line1, rstrip line2)
  | junk _ _ _ => none

/-- The object of a set that `sgp4` accepts. -/
def satellite (library : Library F) (block : Block) : Option (Satrec F) :=
  block.elements.bind fun elements =>
    accepted library elements.1 elements.2

/-- The name that the record of a set should have: its own, or the catalogue
number. -/
def recordName (number : ℤ) : Block → Text
  | named name _ _ _ _ => nameOf (rstrip name)
  | unnamed _ _ _ _ | junk _ _ _ => signed number

/-- What the record of a block should show. -/
def entry (library : Library F) (block : Block) :
    Option (ℤ × Text × Text × Text) :=
  block.elements.bind fun elements =>
    (accepted library elements.1 elements.2).map fun satellite =>
      (satellite.satnum, block.recordName satellite.satnum, elements.1,
        elements.2)

def isJunk : Block → Bool
  | junk _ _ _ => true
  | _ => false

def isUnnamed : Block → Bool
  | unnamed _ _ _ _ => true
  | _ => false

/-- The set that the loop should find. -/
def set : Block → Option ElementSet
  | named name line1 line2 _ _ =>
      some ⟨nameOf (rstrip name), rstrip line1, rstrip line2⟩
  | unnamed line1 line2 _ _ => some ⟨[], rstrip line1, rstrip line2⟩
  | junk _ _ _ => none

end Block

/-- No line that belongs to no set comes directly before a set without a
name. -/
def Aligned (blocks : List Block) : Prop :=
  blocks.IsChain fun left right =>
    ¬(left.isJunk = true ∧ right.isUnnamed = true)

/-! ## The sets of the blocks -/

theorem isPair_of_opens {line1 line2 : Text}
    (hopens : startswith "1 " line1 = true)
    (hcloses : startswith "2 " line2 = true) : isPair line1 line2 = true := by
  rw [isPair, hopens, hcloses]
  rfl

theorem not_isPair_of_notFirst {first second : Text}
    (hfirst : startswith "1 " first = false) :
    isPair first second = false := by
  rw [isPair, hfirst, Bool.false_and]

theorem not_isPair_of_opens {first second : Text}
    (hsecond : startswith "1 " second = true) :
    isPair first second = false := by
  rw [isPair, startswith_two_of_one hsecond, Bool.and_false]

theorem elementSets_pair {first second : Text} (rest : List Text)
    (hpair : isPair first second = true) :
    elementSets (first :: second :: rest) =
      ⟨[], first, second⟩ :: elementSets rest := by
  rw [elementSets.eq_def]
  exact if_pos hpair

theorem elementSets_named {first second third : Text} (later : List Text)
    (hfirst : isPair first second = false)
    (hpair : isPair second third = true) :
    elementSets (first :: second :: third :: later) =
      ⟨nameOf first, second, third⟩ :: elementSets later := by
  rw [elementSets, if_neg (by simp [hfirst]), if_pos hpair]

theorem elementSets_skip {first : Text} {rest : List Text}
    (hfirst : ∀ second later, rest = second :: later →
      isPair first second = false)
    (hsecond : ∀ second third later, rest = second :: third :: later →
      isPair second third = false) :
    elementSets (first :: rest) = elementSets rest := by
  rcases rest with _ | ⟨second, _ | ⟨third, later⟩⟩
  · rfl
  · simp [elementSets, hfirst second [] rfl]
  · rw [elementSets, if_neg (by simp [hfirst second _ rfl]),
      if_neg (by simp [hsecond second third later rfl])]

/-- The loop finds the sets of the blocks: it is at the first line of a block
whenever it has passed the blocks before. -/
theorem elementSets_blocks {blocks : List Block}
    (haligned : Aligned blocks) :
    elementSets ((blocks.flatMap Block.lines).map rstrip) =
      blocks.filterMap Block.set := by
  induction blocks with
  | nil => rfl
  | cons block blocks ih =>
      have hrest := ih (List.isChain_of_isChain_cons haligned)
      rw [List.flatMap_cons, List.map_append]
      cases block with
      | named name line1 line2 hopens hcloses =>
          have hset : (Block.named name line1 line2 hopens hcloses).set =
            some ⟨nameOf (rstrip name), rstrip line1, rstrip line2⟩ := rfl
          rw [List.filterMap_cons_some hset, ← hrest]
          exact elementSets_named _ (not_isPair_of_opens hopens)
            (isPair_of_opens hopens hcloses)
      | unnamed line1 line2 hopens hcloses =>
          have hset : (Block.unnamed line1 line2 hopens hcloses).set =
            some ⟨[], rstrip line1, rstrip line2⟩ := rfl
          rw [List.filterMap_cons_some hset, ← hrest]
          exact elementSets_pair _ (isPair_of_opens hopens hcloses)
      | junk line hfirst hsecond =>
          rw [List.filterMap_cons_none rfl, ← hrest]
          refine elementSets_skip
            (fun second later _ => not_isPair_of_notFirst hfirst) ?_
          intro second third later hlines
          -- The next block starts no set with its first line, since it is not
          -- a set without a name.
          cases blocks with
          | nil => simp at hlines
          | cons next others =>
              have hnext := (List.isChain_cons_cons.mp haligned).1
              cases next with
              | named name line1 line2 hopens hcloses =>
                  have hthird := (List.cons.inj (List.cons.inj hlines).2).1
                  rw [← hthird]
                  exact not_isPair_of_opens hopens
              | unnamed line1 line2 hopens hcloses =>
                  exact absurd ⟨rfl, rfl⟩ hnext
              | junk other hother _ =>
                  rw [← (List.cons.inj hlines).1]
                  exact not_isPair_of_notFirst hother

/-! ## Names -/

/-- A name line gives a name. -/
theorem nameOf_ne_nil {name : Text} (hname : strip name ≠ []) :
    nameOf (rstrip name) ≠ [] := by
  obtain ⟨init, last, hline, hlast⟩ := exists_rstrip_eq hname
  have hmem : last ∈ removeprefix "0 " (rstrip name) := by
    rw [ removeprefix]
    split
    case isTrue hstart =>
      have hlength : (text "0 ").length = 2 := by decide
      have hlong : 2 ≤ init.length := by
        by_contra hshort
        -- The line would be the prefix itself, which ends with a space.
        obtain ⟨rest, hrest⟩ := List.isPrefixOf_iff_prefix.mp hstart
        have hlengths := congrArg List.length hrest
        rw [hline, List.length_append, List.length_append,
          List.length_singleton, hlength] at hlengths
        have hnil : rest = [] := List.eq_nil_of_length_eq_zero (by omega)
        rw [hnil, List.append_nil, hline] at hrest
        have hsplit : text "0 " = [point 0x30] ++ [point 0x20] := by decide
        rw [hsplit] at hrest
        have hspace := (List.append_inj' hrest rfl).2
        rw [← List.singleton_inj.mp hspace] at hlast
        exact absurd hlast (by decide)
      rw [hline, hlength, List.drop_append_of_le_length hlong]
      exact List.mem_append_right _ (List.mem_singleton_self last)
    case isFalse =>
      rw [hline]
      exact List.mem_append_right _ (List.mem_singleton_self last)
  intro hnil
  have hall := (strip_eq_nil_iff _).mp hnil last hmem
  exact absurd (hall.symm.trans hlast) (by decide)

/-! ## The records of the blocks -/

variable {runtime : Runtime F} {library : Library F}

/-- `int` reads the ASCII characters for which `isdigit` holds. -/
def ReadsAsciiDigits (runtime : Runtime F) : Prop :=
  ∀ code : CodePoint, 0x20 ≤ code.val → code.val ≤ 0x7E →
    runtime.isDigit code = true → (runtime.decimalValue code).isSome = true

/-- A line of printable ASCII characters. -/
def Printable (line : Text) : Prop :=
  ∀ code ∈ line, 0x20 ≤ code.val ∧ code.val ≤ 0x7E

theorem Printable.unbroken {line : Text} (hline : Printable line) :
    ∀ code ∈ line, isLineBreak code = false := by
  intro code hcode
  have hbounds := hline code hcode
  simp only [isLineBreak, Bool.or_eq_false_iff, Bool.and_eq_false_iff,
    decide_eq_false_iff_not, beq_eq_false_iff_ne]
  omega

theorem Printable.yearConverts (hdigits : ReadsAsciiDigits runtime)
    {line : Text} (hline : Printable line) : YearConverts runtime line := by
  intro _ hyear code hcode
  have hmem : code ∈ line := by
    have hraw := List.mem_of_mem_take hcode
    rw [rawDesignator, Runtime.strip, List.mem_reverse] at hraw
    have hstripped := (List.dropWhile_suffix _).subset hraw
    rw [List.mem_reverse] at hstripped
    have hcolumns := (List.dropWhile_suffix _).subset hstripped
    exact List.mem_of_mem_drop (List.mem_of_mem_take hcolumns)
  have hdigit : runtime.isDigit code = true := by
    rw [Runtime.isdigit, Bool.and_eq_true, List.all_eq_true] at hyear
    exact hyear.2 code hcode
  exact hdigits code (hline code hmem).1 (hline code hmem).2 hdigit

theorem Printable.rstrip {line : Text} (hline : Printable line) :
    Printable (Python.rstrip line) := by
  intro code hcode
  rw [Python.rstrip, List.mem_reverse] at hcode
  exact hline code (List.mem_reverse.mp
    ((List.dropWhile_suffix _).subset hcode))

/-- The lines that the loop runs over. -/
theorem catalogLines_joinLines {lines : List Text} {blocks : List Block}
    (hprintable : ∀ line ∈ lines, Printable line)
    (hblocks : lines.filter (fun line => strip line ≠ []) =
      blocks.flatMap Block.lines) :
    catalogLines (joinLines lines) =
      (blocks.flatMap Block.lines).map rstrip := by
  rw [catalogLines, filter_splitlines_joinLines (by decide)
    fun line hline => (hprintable line hline).unbroken, hblocks]

/-- What is expected of a set, whatever block it is of. -/
def ElementSet.entry (library : Library F) (set : ElementSet) :
    Option (ℤ × Text × Text × Text) :=
  (accepted library set.line1 set.line2).map fun satellite =>
    (satellite.satnum, if set.name = [] then signed satellite.satnum
      else set.name, set.line1, set.line2)

theorem map_entryOf_recordOf {set : ElementSet}
    {result : Option (TwoLineElementSet F)}
    (hresult : recordOf runtime library set = some result) :
    result.map entryOf = set.entry library := by
  rw [ElementSet.entry]
  rcases recordOf_cases set with ⟨hskipped, hrecord⟩ |
    ⟨satellite, haccepted, ⟨hrecord, -⟩ |
      ⟨-, -, record, hrecord, hnoradId, hname, hline1, hline2⟩⟩
  · rw [hskipped, ← Option.some.inj (hrecord.symm.trans hresult)]
    rfl
  · rw [hrecord] at hresult
    simp at hresult
  · rw [haccepted, ← Option.some.inj (hrecord.symm.trans hresult)]
    simp [entryOf, hnoradId, hname, hline1, hline2]

/-- A set raises exactly for an epoch that is no date, where its year can be
read. -/
theorem isSome_recordOf_iff {set : ElementSet}
    (hyear : YearConverts runtime set.line1) :
    (recordOf runtime library set).isSome = true ↔
      ∀ satellite, accepted library set.line1 set.line2 = some satellite →
        (epochOf library satellite).isSome = true := by
  have hconverts :=
    (isSome_internationalDesignator_iff runtime set.line1).mpr hyear
  rcases recordOf_cases set with ⟨hskipped, hrecord⟩ |
    ⟨satellite, haccepted, ⟨hrecord, hraises⟩ |
      ⟨-, hepoch, record, hrecord, -⟩⟩
  · rw [hrecord, hskipped]
    simp
  · rw [hrecord]
    refine iff_of_false (by simp) fun hepochs => ?_
    rcases hraises with hother | hepoch
    · exact absurd (hconverts.symm.trans hother) (by simp)
    · exact absurd ((hepochs satellite haccepted).symm.trans hepoch) (by simp)
  · rw [hrecord]
    refine iff_of_true rfl fun other hother => ?_
    obtain rfl := Option.some.inj (haccepted.symm.trans hother)
    exact hepoch

/-- The set of a block is expected to give the record of the block. -/
theorem Block.bind_set_entry {block : Block}
    (hlines : ∀ line ∈ block.lines, strip line ≠ []) :
    block.set.bind (ElementSet.entry library) = block.entry library := by
  cases block with
  | named name line1 line2 hopens hcloses =>
      have hname := nameOf_ne_nil (hlines name (by simp [Block.lines]))
      simp [Block.set, ElementSet.entry, Block.entry, Block.elements,
        Block.recordName, hname]
  | unnamed line1 line2 hopens hcloses => rfl
  | junk line hfirst hsecond => rfl

theorem Block.satellite_eq (block : Block) :
    block.satellite library = block.set.bind fun set =>
      accepted library set.line1 set.line2 := by
  cases block <;> rfl

/-- The first line of the set of a block of printable lines is printable. -/
theorem Block.printable_line1 {block : Block} {set : ElementSet}
    (hset : block.set = some set)
    (hlines : ∀ line ∈ block.lines, Printable line) :
    Printable set.line1 := by
  cases block with
  | named name line1 line2 hopens hcloses =>
      obtain rfl := Option.some.inj hset
      exact (hlines line1 (by simp [Block.lines])).rstrip
  | unnamed line1 line2 hopens hcloses =>
      obtain rfl := Option.some.inj hset
      exact (hlines line1 (by simp [Block.lines])).rstrip
  | junk line hfirst hsecond => simp [Block.set] at hset

/-- A printable text of aligned blocks, with blank lines anywhere, is read as the
accepted sets of its blocks, each with its own name and lines, exactly when the
epoch of every accepted set is a date. -/
theorem parseTleCatalog_blocks_iff (hdigits : ReadsAsciiDigits runtime)
    {lines : List Text} {blocks : List Block}
    (hprintable : ∀ line ∈ lines, Printable line)
    (hblocks : lines.filter (fun line => strip line ≠ []) =
      blocks.flatMap Block.lines) (haligned : Aligned blocks) :
    (parseTleCatalog runtime library (joinLines lines)).map
        (List.map entryOf) = some (blocks.filterMap (Block.entry library)) ↔
      ∀ block ∈ blocks, ∀ satellite,
        block.satellite library = some satellite →
          (epochOf library satellite).isSome = true := by
  have hmem : ∀ block ∈ blocks, ∀ line ∈ block.lines,
      line ∈ lines ∧ strip line ≠ [] := by
    intro block hblock line hline
    have hkept : line ∈ lines.filter fun line => strip line ≠ [] := by
      rw [hblocks]
      exact List.mem_flatMap.mpr ⟨block, hblock, hline⟩
    simpa using List.mem_filter.mp hkept
  have hexpected : blocks.filterMap (Block.entry library) =
      (blocks.filterMap Block.set).filterMap (ElementSet.entry library) := by
    rw [List.filterMap_filterMap]
    apply List.filterMap_congr
    intro block hblock
    exact (Block.bind_set_entry fun line hline =>
      (hmem block hblock line hline).2).symm
  rw [parseTleCatalog, catalogLines_joinLines hprintable hblocks,
    elementSets_blocks haligned, hexpected,
    map_mapM_reduceOption_iff fun set _ result => map_entryOf_recordOf]
  have hyear : ∀ block ∈ blocks, ∀ set, block.set = some set →
      YearConverts runtime set.line1 := by
    intro block hblock set hset
    exact (Block.printable_line1 hset fun line hline =>
      hprintable line (hmem block hblock line hline).1).yearConverts hdigits
  constructor
  · intro hall block hblock satellite hsatellite
    rw [Block.satellite_eq] at hsatellite
    obtain ⟨set, hset, haccepted⟩ := Option.bind_eq_some_iff.mp hsatellite
    exact (isSome_recordOf_iff (hyear block hblock set hset)).mp
      (hall set (List.mem_filterMap.mpr ⟨block, hblock, hset⟩)) satellite
        haccepted
  · intro hepochs set hset
    obtain ⟨block, hblock, hset⟩ := List.mem_filterMap.mp hset
    refine (isSome_recordOf_iff (hyear block hblock set hset)).mpr
      fun satellite haccepted => hepochs block hblock satellite ?_
    rw [Block.satellite_eq, hset]
    exact haccepted

/-- A set with a name that looks like an element line, then a line of no set, a
blank line, and a set with a name. -/
def mixedLines : List Text :=
  [text "2 SAT", vanguard1, vanguard2, text "NOTE", text " ",
    text "0 ISS (ZARYA)", zarya1, zarya2]

def mixedBlocks : List Block :=
  [.named (text "2 SAT") vanguard1 vanguard2 (by decide +kernel)
      (by decide +kernel),
    .junk (text "NOTE") (by decide) (by decide),
    .named (text "0 ISS (ZARYA)") zarya1 zarya2 (by decide +kernel)
      (by decide +kernel)]

theorem unitRuntime_readsAsciiDigits : ReadsAsciiDigits unitRuntime := by
  intro code _ _ hdigit
  change (if Python.isDigit code = true then some (code.val - 0x30)
    else none).isSome = true
  change Python.isDigit code = true at hdigit
  rw [if_pos hdigit]
  rfl

theorem mixed_catalog_read :
    (parseTleCatalog unitRuntime (unitLibrary (some 0))
        (joinLines mixedLines)).map (List.map entryOf) =
      some [(5, text "2 SAT", vanguard1, vanguard2),
        (25544, text "ISS (ZARYA)", zarya1, zarya2)] := by
  have hexpected : mixedBlocks.filterMap
      (Block.entry (unitLibrary (some 0))) =
        [(5, text "2 SAT", vanguard1, vanguard2),
          (25544, text "ISS (ZARYA)", zarya1, zarya2)] := by
    decide +kernel
  have hall : (mixedLines.all fun line => line.all fun code =>
      0x20 ≤ code.val && code.val ≤ 0x7E) = true := by
    decide +kernel
  have hprintable : ∀ line ∈ mixedLines, Printable line := by
    intro line hline code hcode
    simpa using List.all_eq_true.mp (List.all_eq_true.mp hall line hline) code
      hcode
  have hblocks : mixedLines.filter (fun line => strip line ≠ []) =
      mixedBlocks.flatMap Block.lines := by
    decide +kernel
  rw [← hexpected]
  refine (parseTleCatalog_blocks_iff unitRuntime_readsAsciiDigits hprintable
    hblocks ?_).mpr fun _ _ _ _ => rfl
  unfold Aligned
  decide

/-- A set whose epoch is the day 99999999 of a year. -/
def farEpoch : Text := text
  "1 00005U 58002B   2099999999.999  .00000023  00000-0  28098-4 0  4753"

/-- An epoch that is no date ends the whole catalog, although `sgp4` accepts the
set. -/
theorem far_epoch_raises :
    (Block.unnamed farEpoch vanguard2 (by decide +kernel)
      (by decide +kernel)).entry (unitLibrary none) =
        some (5, text "5", farEpoch, vanguard2) ∧
    parseTleCatalog unitRuntime (unitLibrary none)
      (joinLines [farEpoch, vanguard2]) = none := by
  have hentries : (parseTleCatalog unitRuntime (unitLibrary none)
      (joinLines [farEpoch, vanguard2])).map (List.map entryOf) = none := by
    decide +kernel
  refine ⟨by decide +kernel, ?_⟩
  exact Option.map_eq_none_iff.mp hentries

end UTTG.Celestrak
