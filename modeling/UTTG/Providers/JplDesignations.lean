import UTTG.Ingestion.Catalog
import UTTG.Providers.Jpl

/-!
# Designations in two encodings

A table of records comes as a list of objects, or as a list of fields with one
row of values for each record, in which an absent member is a null.  Of objects
`parse_designations` skips the falsy designations; of rows it renders every
value, also a null or an empty string.
-/

namespace UTTG.Jpl

open Python Ingestion UTTG.Loops

section Tables

variable {F : Type}

/-- Records with the fields that they use. -/
structure RecordTable (F : Type) where
  fields : List Text
  records : List (Dict Text (Json F))
  covered : ∀ record ∈ records, ∀ name ∈ Dict.keys record, name ∈ fields

/-- The value of a record in a row. -/
def valueUnder (name : Text) (record : Dict Text (Json F)) : Json F :=
  (Dict.get record name).getD .null

namespace RecordTable

variable (table : RecordTable F)

def row (record : Dict Text (Json F)) : Json F :=
  .list (table.fields.map fun name => valueUnder name record)

/-- A payload with the records as objects and without a list of fields. -/
structure AsObjects (payload : Dict Text (Json F)) : Prop where
  fields : Dict.get payload (text "fields") = none
  data : Dict.get payload (text "data") =
    some (.list (table.records.map .dict))

/-- A payload with the fields and the records as rows. -/
structure AsRows (payload : Dict Text (Json F)) : Prop where
  fields : Dict.get payload (text "fields") =
    some (.list (table.fields.map .str))
  data : Dict.get payload (text "data") =
    some (.list (table.records.map table.row))

end RecordTable

variable (runtime : Runtime F)

/-- A set without an empty string in which each string is the rendering of a
designation that is not null. -/
structure Proper (table : RecordTable F) (key : Text)
    (designations : Finset Text) : Prop where
  nonempty : [] ∉ designations
  rendered : ∀ designation ∈ designations, ∃ record ∈ table.records,
    valueUnder key record ≠ .null ∧
      rendering runtime (valueUnder key record) = .ok designation

/-- Both encodings of the table give one set, and it is proper. -/
def EncodingsAgree (table : RecordTable F) (key : Text) : Prop :=
  ∀ objects rows, table.AsObjects objects → table.AsRows rows →
    ∃ designations, parseDesignations runtime objects key = .ok designations ∧
      parseDesignations runtime rows key = .ok designations ∧
      Proper runtime table key designations

/-- The record has a designation that is truthy and whose rendering is this
string. -/
def Designates (key : Text) (record : Dict Text (Json F))
    (designation : Text) : Prop :=
  runtime.truthy (valueUnder key record) = true ∧
    rendering runtime (valueUnder key record) = .ok designation

/-- Each record has a truthy designation that is not blank, or one that is
rendered like that of a record which has. -/
def Designated (table : RecordTable F) (key : Text) : Prop :=
  key ∈ table.fields → ∀ record ∈ table.records, ∃ designation,
    rendering runtime (valueUnder key record) = .ok designation ∧
      designation ≠ [] ∧
      ∃ other ∈ table.records, Designates runtime key other designation

/-! ## What the parser gives for the encodings -/

/-- What a record gives among the objects. -/
def fromObject (key : Text) (record : Dict Text (Json F)) :
    Except Raised (Option Text) :=
  objectDesignation runtime key (.dict record)

/-- What a record gives among the rows. -/
def fromRow (key : Text) (record : Dict Text (Json F)) :
    Except Raised (Option Text) :=
  (rendering runtime (valueUnder key record)).map some

theorem getOrNone_of_get {payload : Dict Text (Json F)} {name : String}
    {value : Json F} (hget : Dict.get payload (text name) = some value) :
    getOrNone payload name = value := by
  rw [getOrNone, hget, Option.getD_some]

theorem orElse_list (items : List (Json F)) :
    runtime.orElse (.list items) (.list []) = .list items := by
  cases items with
  | nil => rfl
  | cons first rest => rfl

variable {runtime} {table : RecordTable F} {key : Text}
  {payload : Dict Text (Json F)}

theorem parseDesignations_objects (hpayload : table.AsObjects payload) :
    parseDesignations runtime payload key =
      (table.records.mapM (fromObject runtime key)).map
        fun designations => designations.reduceOption.toFinset := by
  rw [parseDesignations, getOrNone_of_get hpayload.data, orElse_list]
  cases hrecords : table.records with
  | nil =>
      have hfields : getOrNone payload "fields" = .null := by
        rw [getOrNone, hpayload.fields, Option.getD_none]
      rw [hfields]
      rfl
  | cons first rest =>
      have hobjects : ∀ records : List (Dict Text (Json F)),
          (records.map Value.dict).mapM (objectDesignation runtime key) =
            records.mapM (fromObject runtime key) := fun records =>
        List.mapM_map
      change (((first :: rest).map Value.dict).mapM
        (objectDesignation runtime key) >>= fun designations =>
          pure designations.reduceOption.toFinset) = _
      rw [hobjects]
      cases (first :: rest).mapM (fromObject runtime key) with
      | error raised => rfl
      | ok designations => rfl

theorem indexOf_fields (names : List Text) (key : Text) :
    indexOf key (.list (names.map Value.str) : Json F) =
      .ok (names.findIdx? (· == key)) := by
  rw [indexOf, List.findIdx?_map]
  rfl

theorem parseDesignations_rows (hpayload : table.AsRows payload) :
    parseDesignations runtime payload key =
      if key ∈ table.fields then
        (table.records.mapM (fromRow runtime key)).map
          fun designations => designations.reduceOption.toFinset
      else .ok ∅ := by
  have hstart : startsWithDict runtime
      (.list (table.records.map table.row)) = .ok false := by
    cases table.records with
    | nil => rfl
    | cons first rest => rfl
  rw [parseDesignations, getOrNone_of_get hpayload.data,
    getOrNone_of_get hpayload.fields, orElse_list, orElse_list, hstart]
  dsimp only
  rw [indexOf_fields]
  cases hindex : table.fields.findIdx? (· == key) with
  | none =>
      have habsent : key ∉ table.fields := by
        intro hmem
        have hnone := List.findIdx?_eq_none_iff.mp hindex key hmem
        simp at hnone
      rw [if_neg habsent]
      rfl
  | some index =>
      obtain ⟨hlength, hname, -⟩ := List.findIdx?_eq_some_iff_getElem.mp hindex
      have hsame : table.fields[index] = key := by simpa using hname
      have hpresent : key ∈ table.fields := hsame ▸ List.getElem_mem hlength
      have hrow : ∀ record, rowDesignation runtime index (table.row record) =
          fromRow runtime key record := by
        intro record
        have hcell : (table.fields.map fun name =>
            valueUnder name record)[index]? = some (valueUnder key record) := by
          rw [List.getElem?_map, List.getElem?_eq_getElem hlength, hsame]
          rfl
        simp only [RecordTable.row, rowDesignation, hcell]
        rfl
      have hrows : (table.records.map table.row).mapM
          (rowDesignation runtime index) =
            table.records.mapM (fromRow runtime key) := by
        rw [List.mapM_map]
        congr 1
        funext record
        exact hrow record
      rw [if_pos hpresent]
      change ((table.records.map table.row).mapM
        (rowDesignation runtime index) >>= fun designations =>
          pure designations.reduceOption.toFinset) = _
      rw [hrows]
      cases table.records.mapM (fromRow runtime key) with
      | error raised => rfl
      | ok designations => rfl

/-! ## Agreement -/

theorem fromObject_eq_some_iff (record : Dict Text (Json F))
    (designation : Text) :
    fromObject runtime key record = .ok (some designation) ↔
      Designates runtime key record designation := by
  unfold fromObject objectDesignation Designates valueUnder
  dsimp only
  split
  case isTrue htruthy =>
    rw [and_iff_right htruthy]
    cases rendering runtime ((Dict.get record key).getD .null) with
    | error raised => simp [Except.map]
    | ok other => simp [Except.map]
  case isFalse hfalsy => simp [hfalsy]

theorem fromRow_eq_some_iff (record : Dict Text (Json F))
    (designation : Text) :
    fromRow runtime key record = .ok (some designation) ↔
      rendering runtime (valueUnder key record) = .ok designation := by
  rw [fromRow]
  cases rendering runtime (valueUnder key record) with
  | error raised => simp [Except.map]
  | ok other => simp [Except.map]

/-- A row always gives a string where it does not raise. -/
theorem rendering_of_fromRow {record : Dict Text (Json F)}
    {result : Option Text} (hrow : fromRow runtime key record = .ok result) :
    ∃ designation,
      rendering runtime (valueUnder key record) = .ok designation := by
  rw [fromRow] at hrow
  cases hrendering : rendering runtime (valueUnder key record) with
  | error raised => simp [hrendering, Except.map] at hrow
  | ok designation => exact ⟨designation, rfl⟩

theorem exists_fromObject {record : Dict Text (Json F)} {designation : Text}
    (hrendering : rendering runtime (valueUnder key record) =
      .ok designation) :
    ∃ result, fromObject runtime key record = .ok result := by
  by_cases htruthy : runtime.truthy (valueUnder key record) = true
  · exact ⟨_, (fromObject_eq_some_iff record designation).mpr
      ⟨htruthy, hrendering⟩⟩
  · exact ⟨none, if_neg htruthy⟩

theorem ne_null_of_truthy {value : Json F}
    (htruthy : runtime.truthy value = true) : value ≠ .null := by
  rintro rfl
  cases htruthy

/-- Where the key is no field both encodings give the empty set. -/
theorem parseDesignations_of_not_field {objects rows : Dict Text (Json F)}
    (hobjects : table.AsObjects objects) (hrows : table.AsRows rows)
    (hkey : key ∉ table.fields) :
    parseDesignations runtime objects key = .ok ∅ ∧
      parseDesignations runtime rows key = .ok ∅ := by
  have hnone : ∀ record ∈ table.records,
      fromObject runtime key record = .ok none := by
    intro record hrecord
    have habsent : Dict.get record key = none := by
      cases hget : Dict.get record key with
      | none => rfl
      | some value =>
          exact absurd (table.covered record hrecord key
            (List.mem_map_of_mem (Dict.mem_of_get hget))) hkey
    simp [fromObject, objectDesignation, habsent, Runtime.truthy]
  obtain ⟨designations, hresults⟩ := exists_mapM_eq_ok_iff.mpr
    fun record hrecord => ⟨_, hnone record hrecord⟩
  have hempty : designations.reduceOption = [] := by
    rw [List.eq_nil_iff_forall_not_mem]
    intro designation hmem
    obtain ⟨record, hrecord, hsome⟩ :=
      (mem_reduceOption_of_mapM hresults designation).mp hmem
    rw [hnone record hrecord] at hsome
    cases hsome
  rw [parseDesignations_objects hobjects, parseDesignations_rows hrows,
    if_neg hkey, hresults]
  simp [Except.map, hempty]

theorem encodingsAgree_of_designated
    (hdesignated : Designated runtime table key) :
    EncodingsAgree runtime table key := by
  intro objects rows hobjects hrows
  by_cases hkey : key ∈ table.fields
  case neg =>
    have hempty : parseDesignations runtime objects key = .ok ∅ ∧ _ :=
      parseDesignations_of_not_field hobjects hrows hkey
    exact ⟨∅, hempty.1, hempty.2, by simp, by simp⟩
  case pos =>
    have hall := hdesignated hkey
    obtain ⟨given, hgiven⟩ := exists_mapM_eq_ok_iff.mpr
      fun record hrecord => by
        obtain ⟨designation, hrendering, -⟩ := hall record hrecord
        exact exists_fromObject hrendering
    obtain ⟨listed, hlisted⟩ := exists_mapM_eq_ok_iff.mpr
      fun record hrecord => by
        obtain ⟨designation, hrendering, -⟩ := hall record hrecord
        exact ⟨_, (fromRow_eq_some_iff record designation).mpr hrendering⟩
    have hobject : ∀ designation, designation ∈ given.reduceOption.toFinset ↔
        ∃ record ∈ table.records, Designates runtime key record
          designation := by
      intro designation
      rw [List.mem_toFinset, mem_reduceOption_of_mapM hgiven]
      simp only [fromObject_eq_some_iff]
    have hrow : listed.reduceOption.toFinset = given.reduceOption.toFinset := by
      ext designation
      rw [hobject, List.mem_toFinset, mem_reduceOption_of_mapM hlisted]
      simp only [fromRow_eq_some_iff]
      constructor
      · rintro ⟨record, hrecord, hrendering⟩
        obtain ⟨same, hsame, -, hother⟩ := hall record hrecord
        obtain rfl : same = designation :=
          Except.ok.inj (hsame.symm.trans hrendering)
        exact hother
      · rintro ⟨record, hrecord, -, hrendering⟩
        exact ⟨record, hrecord, hrendering⟩
    refine ⟨given.reduceOption.toFinset, ?_, ?_, fun hblank => ?_,
      fun designation hmem => ?_⟩
    · rw [parseDesignations_objects hobjects, hgiven]
      rfl
    · rw [parseDesignations_rows hrows, if_pos hkey, hlisted, ← hrow]
      rfl
    · obtain ⟨record, hrecord, -, hrendering⟩ := (hobject []).mp hblank
      obtain ⟨same, hsame, hne, -⟩ := hall record hrecord
      exact hne (Except.ok.inj (hsame.symm.trans hrendering))
    · obtain ⟨record, hrecord, htruthy, hrendering⟩ :=
        (hobject designation).mp hmem
      exact ⟨record, hrecord, ne_null_of_truthy htruthy, hrendering⟩

/-- The payloads of the two encodings. -/
def RecordTable.objects (table : RecordTable F) : Dict Text (Json F) :=
  [(text "data", .list (table.records.map .dict))]

def RecordTable.rows (table : RecordTable F) : Dict Text (Json F) :=
  [(text "fields", .list (table.fields.map .str)),
    (text "data", .list (table.records.map table.row))]

theorem asObjects_objects (table : RecordTable F) :
    table.AsObjects table.objects where
  fields := by
    have hne : text "data" ≠ text "fields" := by decide
    simp [RecordTable.objects, Dict.get, hne]
  data := by simp [RecordTable.objects, Dict.get]

theorem asRows_rows (table : RecordTable F) :
    table.AsRows table.rows where
  fields := by simp [RecordTable.rows, Dict.get]
  data := by
    have hne : text "fields" ≠ text "data" := by decide
    simp [RecordTable.rows, Dict.get, hne]

theorem designated_of_encodingsAgree
    (hagree : EncodingsAgree runtime table key) :
    Designated runtime table key := by
  intro hkey record hrecord
  obtain ⟨designations, hobjects, hrows, hproper⟩ :=
    hagree _ _ (asObjects_objects table) (asRows_rows table)
  rw [parseDesignations_objects (asObjects_objects table)] at hobjects
  rw [parseDesignations_rows (asRows_rows table), if_pos hkey] at hrows
  cases hgiven : table.records.mapM (fromObject runtime key) with
  | error raised => simp [hgiven, Except.map] at hobjects
  | ok given =>
      cases hlisted : table.records.mapM (fromRow runtime key) with
      | error raised => simp [hlisted, Except.map] at hrows
      | ok listed =>
          simp only [hgiven, hlisted, Except.map, Except.ok.injEq]
            at hobjects hrows
          obtain ⟨result, hresult⟩ := exists_mapM_eq_ok_iff.mp
            ⟨listed, hlisted⟩ record hrecord
          obtain ⟨designation, hrendering⟩ := rendering_of_fromRow hresult
          have hmem : designation ∈ designations := by
            rw [← hrows, List.mem_toFinset, mem_reduceOption_of_mapM hlisted]
            exact ⟨record, hrecord,
              (fromRow_eq_some_iff record designation).mpr hrendering⟩
          refine ⟨designation, hrendering, ?_, ?_⟩
          · rintro rfl
            exact hproper.nonempty hmem
          · rw [← hobjects, List.mem_toFinset,
              mem_reduceOption_of_mapM hgiven] at hmem
            simpa only [fromObject_eq_some_iff] using hmem

/-- Both encodings of a table give one proper set exactly when each designation
is rendered like one that is truthy and not blank. -/
theorem encodings_agree_iff (runtime : Runtime F) (table : RecordTable F)
    (key : Text) :
    EncodingsAgree runtime table key ↔ Designated runtime table key :=
  ⟨designated_of_encodingsAgree, encodingsAgree_of_designated⟩

end Tables

/-- A table of one asteroid without a designation and one with a blank
designation. -/
def undesignated : RecordTable Unit where
  fields := [text "des"]
  records := [[(text "des", .null)], [(text "des", .str (text " "))]]
  covered := by decide

/-- As objects the table gives a set with the empty string, and as rows one
with the text of `None` besides. -/
theorem undesignated_disagree :
    parseDesignations unitRuntime undesignated.objects (text "des") =
        .ok {[]} ∧
      parseDesignations unitRuntime undesignated.rows (text "des") =
        .ok {text "None", []} ∧
      ¬EncodingsAgree unitRuntime undesignated (text "des") := by
  refine ⟨by rfl, by rfl, fun hagree => ?_⟩
  obtain ⟨designation, hrendering, hne, -⟩ :=
    designated_of_encodingsAgree hagree (by decide)
      [(text "des", .str (text " "))] (by simp [undesignated])
  exact hne (Except.ok.inj hrendering).symm

end UTTG.Jpl
