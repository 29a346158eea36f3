import UTTG.Ingestion.Catalog
import UTTG.Providers.Jpl

/-!
# Records of the close-approach table

With distinct field names a row is read through its named values only, so the
order of the columns does not matter, no index is out of range and each row is
read on its own.  A null designation is rendered like a string, and its row
becomes a record.
-/

namespace UTTG.Jpl

open Python Ingestion UTTG.Loops
open Launches (Instant)

/-! ## Columns -/

section Columns

variable {F : Type}

/-- The value of a row under a name. -/
def valueAt (names : List Text) (values : List (Json F)) (name : String) :
    Option (Json F) :=
  (names.idxOf? (text name)).bind fun index => values[index]?

theorem valueAt_eq_some_iff {names : List Text} (hnames : names.Nodup)
    (values : List (Json F)) (name : String) (value : Json F) :
    valueAt names values name = some value ↔
      ∃ index : ℕ, names[index]? = some (text name) ∧
        values[index]? = some value := by
  rw [valueAt]
  rw [Option.bind_eq_some_iff]
  refine exists_congr fun index => and_congr_left fun _ => ?_
  rw [List.idxOf?_eq_some_iff, List.getElem?_eq_some_iff]
  refine exists_congr fun hindex => and_iff_left_of_imp fun hname => ?_
  intro other hother hsame
  have heq := (List.getElem_inj hnames).mp (hsame.trans hname.symm)
  omega

variable (runtime : Runtime F)

/-- The dictionary of the columns. -/
def columns (names : List Text) : Dict Text ℕ := Dict.ofPairs names.zipIdx

theorem columnsOf_names (names : List Text) :
    columnsOf runtime (names.map .str) = .ok (columns names) := by
  have hhashable : ((names.map Value.str).any fun name =>
      runtime.hashKey name = .unhashable) = false := by
    simp [Runtime.hashKey]
  rw [columnsOf, columns]
  rw [hhashable, List.zipIdx_map, List.filterMap_map]
  exact congrArg (fun pairs => Except.ok (Dict.ofPairs pairs))
    List.filterMap_some

/-- The header has the columns that a row must have. -/
def HasRequired (names : List Text) : Prop :=
  ∀ name ∈ required, text name ∈ names

instance (names : List Text) : Decidable (HasRequired names) :=
  inferInstanceAs (Decidable (∀ name ∈ required, text name ∈ names))

variable {names : List Text} (hnames : names.Nodup)
include hnames

theorem get_columns (name : Text) (index : ℕ) :
    Dict.get (columns names) name = some index ↔
      names[index]? = some name := by
  have hkeys : (names.zipIdx.map Prod.fst).Nodup := by
    rwa [List.zipIdx_map_fst]
  rw [columns, Dict.ofPairs_of_nodup hkeys, Dict.get_eq_some_iff hkeys,
    List.mem_zipIdx_iff_getElem?]

theorem isSome_get_columns (name : Text) :
    (Dict.get (columns names) name).isSome = true ↔ name ∈ names := by
  rw [Option.isSome_iff_exists]
  simp only [get_columns hnames, List.mem_iff_getElem?]

/-- A row that is long enough has a value under every name of the header. -/
theorem cell_eq {values : List (Json F)}
    (hlong : names.length ≤ values.length) (name : String) :
    cell (columns names) values name =
      orRaise .keyError (valueAt names values name) := by
  rw [cell]
  cases hget : Dict.get (columns names) (text name) with
  | none =>
      have habsent : valueAt names values name = none := by
        rw [Option.eq_none_iff_forall_ne_some]
        intro value hvalue
        obtain ⟨index, hname, -⟩ :=
          (valueAt_eq_some_iff hnames values name value).mp hvalue
        rw [(get_columns hnames _ _).mpr hname] at hget
        cases hget
      rw [habsent]
      rfl
  | some index =>
      have hname := (get_columns hnames _ _).mp hget
      obtain ⟨hindex, -⟩ := List.getElem?_eq_some_iff.mp hname
      have hcell := List.getElem?_eq_getElem (hindex.trans_le hlong)
      rw [(valueAt_eq_some_iff hnames values name _).mpr
        ⟨index, hname, hcell⟩]
      change orRaise .indexError values[index]? = _
      rw [hcell]
      rfl

theorem exists_valueAt {values : List (Json F)}
    (hlong : names.length ≤ values.length) {name : String}
    (hname : text name ∈ names) :
    ∃ value, valueAt names values name = some value := by
  obtain ⟨index, hindex⟩ := List.mem_iff_getElem?.mp hname
  obtain ⟨hlt, -⟩ := List.getElem?_eq_some_iff.mp hindex
  exact ⟨_, (valueAt_eq_some_iff hnames values name _).mpr
    ⟨index, hindex, List.getElem?_eq_getElem (hlt.trans_le hlong)⟩⟩

end Columns

/-! ## The order of the columns -/

section Order

/-- The cells in this order, and after them those that have no column. -/
def permuted {Cell : Type} (order : List ℕ) (cells : List Cell) : List Cell :=
  order.filterMap (fun index => cells[index]?) ++ cells.drop order.length

/-- A row with its columns in this order. -/
def permutedRow {F : Type} (order : List ℕ) : Json F → Json F
  | .list values => .list (permuted order values)
  | row => row

theorem filterMap_getElem?_range {Cell : Type} (cells : List Cell)
    (width : ℕ) :
    (List.range width).filterMap (fun index => cells[index]?) =
      cells.take width := by
  induction width with
  | zero => rfl
  | succ width ih =>
      rw [List.range_succ, List.filterMap_append, ih, List.take_add_one]
      cases hcell : cells[width]? <;> simp [hcell]

theorem map_some_filterMap_getElem? {Cell : Type} (cells : List Cell)
    {order : List ℕ} (horder : ∀ index ∈ order, index < cells.length) :
    (order.filterMap fun index => cells[index]?).map some =
      order.map fun index => cells[index]? := by
  induction order with
  | nil => rfl
  | cons index rest ih =>
      have hget := List.getElem?_eq_getElem
        (horder index List.mem_cons_self)
      rw [List.filterMap_cons_some hget, List.map_cons, List.map_cons, hget,
        ih fun other hother => horder other (List.mem_cons_of_mem _ hother)]

variable {width : ℕ} {order : List ℕ} (horder : order.Perm (List.range width))
include horder

theorem length_order : order.length = width := by
  rw [horder.length_eq, List.length_range]

theorem mem_order (index : ℕ) : index ∈ order ↔ index < width := by
  rw [horder.mem_iff, List.mem_range]

theorem perm_permuted {Cell : Type} (cells : List Cell) :
    (permuted order cells).Perm cells := by
  have hcells : (order.filterMap fun index => cells[index]?).Perm
      (cells.take width) :=
    filterMap_getElem?_range cells width ▸ horder.filterMap _
  rw [permuted, length_order horder]
  exact (hcells.append_right _).trans
    (List.Perm.of_eq (List.take_append_drop width cells))

theorem getElem?_permuted {Cell : Type} {cells : List Cell}
    (hlong : width ≤ cells.length) {index : ℕ} (hindex : index < width) :
    (permuted order cells)[index]? =
      order[index]?.bind fun source => cells[source]? := by
  have hmap := map_some_filterMap_getElem? cells fun source hsource =>
    ((mem_order horder source).mp hsource).trans_le hlong
  have hlength := congrArg List.length hmap
  rw [List.length_map, List.length_map, length_order horder] at hlength
  have hget := congrArg (fun cells => cells[index]?) hmap
  simp only [List.getElem?_map] at hget
  rw [permuted, List.getElem?_append_left (hlength ▸ hindex)]
  have hvalid : index < order.length := (length_order horder).symm ▸ hindex
  rw [List.getElem?_eq_getElem hvalid] at hget ⊢
  rw [List.getElem?_eq_getElem (hlength ▸ hindex)] at hget ⊢
  simpa using hget

/-- A row keeps its value under every name. -/
theorem valueAt_permuted {F : Type} {names : List Text}
    (hwidth : names.length = width) (hnames : names.Nodup)
    {values : List (Json F)} (hlong : width ≤ values.length) (name : String) :
    valueAt (permuted order names) (permuted order values) name =
      valueAt names values name := by
  have hpermuted : (permuted order names).Nodup :=
    (perm_permuted horder names).nodup_iff.mpr hnames
  refine Option.ext fun value => ?_
  rw [valueAt_eq_some_iff hpermuted, valueAt_eq_some_iff hnames]
  constructor
  · rintro ⟨index, hname, hvalue⟩
    obtain ⟨hlt, -⟩ := List.getElem?_eq_some_iff.mp hname
    rw [(perm_permuted horder names).length_eq, hwidth] at hlt
    rw [getElem?_permuted horder hwidth.ge hlt] at hname
    rw [getElem?_permuted horder hlong hlt] at hvalue
    obtain ⟨source, hsource, hname⟩ := Option.bind_eq_some_iff.mp hname
    rw [hsource] at hvalue
    exact ⟨source, hname, hvalue⟩
  · rintro ⟨source, hname, hvalue⟩
    obtain ⟨hlt, -⟩ := List.getElem?_eq_some_iff.mp hname
    obtain ⟨index, hsource⟩ := List.mem_iff_getElem?.mp
      ((mem_order horder source).mpr (hwidth ▸ hlt))
    obtain ⟨hindex, -⟩ := List.getElem?_eq_some_iff.mp hsource
    rw [length_order horder] at hindex
    refine ⟨index, ?_, ?_⟩
    · rw [getElem?_permuted horder hwidth.ge hindex, hsource]
      exact hname
    · rw [getElem?_permuted horder hlong hindex, hsource]
      exact hvalue

end Order

/-! ## One row -/

section Row

variable {F N : Type} (runtime : Runtime F) (arithmetic : Arithmetic F N)
  (strptime : String → Text → Option Instant)

/-- A row is read through its named cells only. -/
theorem readRow_congr {column other : Dict Text ℕ}
    {values moved : List (Json F)}
    (hcell : ∀ name, cell column values name = cell other moved name)
    (hget : ∀ name, (Dict.get column name).isSome =
      (Dict.get other name).isSome) :
    readRow runtime arithmetic strptime column values =
      readRow runtime arithmetic strptime other moved := by
  have hessentials : essentialsOf runtime strptime column values =
      essentialsOf runtime strptime other moved := by
    simp only [essentialsOf, hcell]
  have hoptional : ∀ name, optionalNumber runtime column values name =
      optionalNumber runtime other moved name := by
    intro name
    have hsame := hget (text name)
    unfold optionalNumber
    rw [hcell]
    cases hleft : Dict.get column (text name) <;>
      cases hright : Dict.get other (text name) <;> simp_all
  have hname : ∀ designation, fullNameOf runtime column values designation =
      fullNameOf runtime other moved designation := by
    intro designation
    have hsame := hget (text "fullname")
    unfold fullNameOf
    rw [hcell]
    cases hleft : Dict.get column (text "fullname") <;>
      cases hright : Dict.get other (text "fullname") <;> simp_all
  unfold readRow
  rw [hessentials]
  simp only [recordOf, hoptional, hname]

variable {names : List Text} (hnames : names.Nodup)
include hnames

theorem approachOf_permuted {order : List ℕ}
    (horder : order.Perm (List.range names.length)) (row : Json F) :
    approachOf runtime arithmetic strptime names.length
        (columns (permuted order names)) (permutedRow order row) =
      approachOf runtime arithmetic strptime names.length (columns names)
        row := by
  have hperm := perm_permuted horder names
  have hpermuted : (permuted order names).Nodup := hperm.nodup_iff.mpr hnames
  cases row with
  | list values =>
      have hlength := (perm_permuted horder values).length_eq
      simp only [permutedRow, approachOf, hlength]
      by_cases hshort : values.length < names.length
      · rw [if_pos hshort, if_pos hshort]
      · rw [if_neg hshort, if_neg hshort]
        have hlong : names.length ≤ values.length := not_lt.mp hshort
        refine readRow_congr runtime arithmetic strptime (fun name => ?_)
          fun name => ?_
        · rw [cell_eq hnames hlong, cell_eq hpermuted (by
            rwa [hperm.length_eq, hlength]),
            valueAt_permuted horder rfl hnames hlong]
        · rw [Bool.eq_iff_iff, isSome_get_columns hnames,
            isSome_get_columns hpermuted, hperm.mem_iff]
  | _ => rfl

end Row

/-! ## What a row gives -/

section Reading

variable {F : Type} (runtime : Runtime F)
  (strptime : String → Text → Option Instant)

/-- The values of a row under this name, where there is such a column, are
good. -/
def Under (names : List Text) (values : List (Json F)) (name : String)
    (Good : Json F → Prop) : Prop :=
  ∀ value ∈ valueAt names values name, Good value

/-- `str` has a text for the value. -/
def Rendered (value : Json F) : Prop := (runtime.str value).isSome = true

/-- `float` does not raise `OverflowError` on the value. -/
def Fits (value : Json F) : Prop := runtime.float value ≠ .overflow

/-- `float` gives a finite number. -/
def Numeric (value : Json F) : Prop :=
  ∃ number, runtime.float value = .number (.finite number)

/-- The text of the value is a date. -/
def Dated (value : Json F) : Prop :=
  ((runtime.str value).bind (strptime "%Y-%b-%d %H:%M")).isSome = true

/-- The text of the value is not blank. -/
def Nonblank (value : Json F) : Prop :=
  ∃ string, runtime.str value = some string ∧ strip string ≠ []

/-- A row with a designation, a distance, a velocity and a date. -/
structure Complete (names : List Text) (values : List (Json F)) : Prop where
  designation : Under names values "des" (Nonblank runtime)
  distance : Under names values "dist" (Numeric runtime)
  velocity : Under names values "v_rel" (Numeric runtime)
  date : Under names values "cd" (Dated runtime strptime)

/-- A row on which no conversion raises. -/
structure Converts (names : List Text) (values : List (Json F)) : Prop where
  designation : Under names values "des" (Rendered runtime)
  distance : Under names values "dist" (Fits runtime)
  velocity : Under names values "v_rel" (Fits runtime)
  optional : Complete runtime strptime names values →
    Under names values "h" (Fits runtime) ∧
      Under names values "diameter" (Fits runtime) ∧
        Under names values "fullname" (Rendered runtime)

theorem rendering_eq_ok_iff (value : Json F) (result : Text) :
    rendering runtime value = .ok result ↔
      ∃ string, runtime.str value = some string ∧ strip string = result := by
  rw [rendering, strOf]
  cases runtime.str value with
  | none => simp [orRaise, Except.map]
  | some string => simp [orRaise, Except.map]

theorem numberOf_eq_ok_some_iff (value : Json F) (number : F) :
    numberOf runtime value = .ok (some number) ↔
      runtime.float value = .number (.finite number) := by
  rw [numberOf]
  cases runtime.float value with
  | number floated => cases floated <;> simp
  | invalid => simp
  | overflow => simp

theorem exists_numberOf_iff (value : Json F) :
    (∃ result, numberOf runtime value = .ok result) ↔ Fits runtime value := by
  rw [numberOf, Fits]
  cases runtime.float value with
  | number floated => cases floated <;> simp
  | invalid => simp
  | overflow => simp

/-- The values of a row under the required names. -/
structure Named (names : List Text) (values : List (Json F))
    (des cd dist vRel : Json F) : Prop where
  des : valueAt names values "des" = some des
  cd : valueAt names values "cd" = some cd
  dist : valueAt names values "dist" = some dist
  vRel : valueAt names values "v_rel" = some vRel

theorem under_iff {names : List Text} {values : List (Json F)} {name : String}
    {value : Json F} (hvalue : valueAt names values name = some value)
    (Good : Json F → Prop) : Under names values name Good ↔ Good value := by
  simp [Under, hvalue]

variable {names : List Text} (hnames : names.Nodup) {values : List (Json F)}
  (hlong : names.length ≤ values.length)
include hnames hlong

theorem exists_named (hrequired : HasRequired names) :
    ∃ des cd dist vRel, Named names values des cd dist vRel := by
  have hcell : ∀ name ∈ required, ∃ value,
      valueAt names values name = some value := fun name hname =>
    exists_valueAt hnames hlong (hrequired name hname)
  obtain ⟨des, hdes⟩ := hcell "des" (by decide)
  obtain ⟨cd, hcd⟩ := hcell "cd" (by decide)
  obtain ⟨dist, hdist⟩ := hcell "dist" (by decide)
  obtain ⟨vRel, hvRel⟩ := hcell "v_rel" (by decide)
  exact ⟨des, cd, dist, vRel, hdes, hcd, hdist, hvRel⟩

theorem cell_of_valueAt {name : String} {value : Json F}
    (hvalue : valueAt names values name = some value) :
    cell (columns names) values name = .ok value := by
  rw [cell_eq hnames hlong, hvalue]
  rfl

omit hlong in
theorem valueAt_eq_none {name : String}
    (hget : Dict.get (columns names) (text name) = none) :
    valueAt names values name = none := by
  rw [Option.eq_none_iff_forall_ne_some]
  intro value hvalue
  obtain ⟨index, hname, -⟩ :=
    (valueAt_eq_some_iff hnames values name value).mp hvalue
  rw [(get_columns hnames _ _).mpr hname] at hget
  cases hget

theorem exists_valueAt_of_get {name : String} {index : ℕ}
    (hget : Dict.get (columns names) (text name) = some index) :
    ∃ value, valueAt names values name = some value :=
  exists_valueAt hnames hlong
    (List.mem_iff_getElem?.mpr ⟨index, (get_columns hnames _ _).mp hget⟩)

theorem optionalNumber_eq (name : String) :
    optionalNumber runtime (columns names) values name =
      match valueAt names values name with
      | none => .ok none
      | some value => numberOf runtime value := by
  rw [optionalNumber]
  cases hget : Dict.get (columns names) (text name) with
  | none => rw [valueAt_eq_none hnames hget]
  | some index =>
      obtain ⟨value, hvalue⟩ := exists_valueAt_of_get hnames hlong hget
      rw [hvalue, cell_of_valueAt hnames hlong hvalue]
      rfl

theorem fullNameOf_eq (designation : Text) :
    fullNameOf runtime (columns names) values designation =
      match valueAt names values "fullname" with
      | none => .ok designation
      | some value => rendering runtime value := by
  rw [fullNameOf]
  cases hget : Dict.get (columns names) (text "fullname") with
  | none => rw [valueAt_eq_none hnames hget]
  | some index =>
      obtain ⟨value, hvalue⟩ := exists_valueAt_of_get hnames hlong hget
      rw [hvalue, cell_of_valueAt hnames hlong hvalue]
      rfl

theorem essentialsOf_eq {des cd dist vRel : Json F}
    (hnamed : Named names values des cd dist vRel) :
    essentialsOf runtime strptime (columns names) values = (do
      let designation := (← rendering runtime des).take 64
      let distance ← numberOf runtime dist
      let velocity ← numberOf runtime vRel
      return do
        let approachAt ← (runtime.str cd).bind (strptime "%Y-%b-%d %H:%M")
        let distance ← distance
        let velocity ← velocity
        if designation = [] then none
        else some ⟨designation, distance, velocity, approachAt⟩) := by
  rw [essentialsOf]
  rw [cell_of_valueAt hnames hlong hnamed.des,
    cell_of_valueAt hnames hlong hnamed.cd,
    cell_of_valueAt hnames hlong hnamed.dist,
    cell_of_valueAt hnames hlong hnamed.vRel]
  rfl

/-- The essentials of a row, where it has them. -/
structure HasEssentials (names : List Text) (values : List (Json F))
    (essentials : Essentials F) : Prop where
  designation : Under names values "des" fun value =>
    ∃ string, runtime.str value = some string ∧
      essentials.designation = (strip string).take 64
  nonempty : essentials.designation ≠ []
  distance : Under names values "dist" fun value =>
    runtime.float value = .number (.finite essentials.distance)
  velocity : Under names values "v_rel" fun value =>
    runtime.float value = .number (.finite essentials.velocity)
  date : Under names values "cd" fun value =>
    (runtime.str value).bind (strptime "%Y-%b-%d %H:%M") =
      some essentials.approachAt

theorem essentialsOf_eq_ok_some_iff (hrequired : HasRequired names)
    (essentials : Essentials F) :
    essentialsOf runtime strptime (columns names) values =
        .ok (some essentials) ↔
      HasEssentials runtime strptime names values essentials := by
  obtain ⟨des, cd, dist, vRel, hnamed⟩ := exists_named hnames hlong hrequired
  rw [essentialsOf_eq runtime strptime hnames hlong hnamed]
  simp only [bind_eq_ok_iff]
  constructor
  · rintro ⟨designation, hdes, distance?, hdist, velocity?, hvRel, hrest⟩
    obtain ⟨string, hstring, rfl⟩ := (rendering_eq_ok_iff runtime _ _).mp hdes
    obtain ⟨approachAt, hdate, hdecided⟩ :=
      Option.bind_eq_some_iff.mp (Except.ok.inj hrest)
    obtain ⟨distance, rfl, hmoving⟩ := Option.bind_eq_some_iff.mp hdecided
    obtain ⟨velocity, rfl, hgiven⟩ := Option.bind_eq_some_iff.mp hmoving
    split at hgiven
    · cases hgiven
    · next hnonempty =>
        cases hgiven
        rw [numberOf_eq_ok_some_iff] at hdist hvRel
        refine ⟨?_, hnonempty, ?_, ?_, ?_⟩
        · exact (under_iff hnamed.des _).mpr ⟨string, hstring, rfl⟩
        · exact (under_iff hnamed.dist _).mpr hdist
        · exact (under_iff hnamed.vRel _).mpr hvRel
        · exact (under_iff hnamed.cd _).mpr hdate
  · intro hessentials
    obtain ⟨string, hstring, hdesignation⟩ :=
      (under_iff hnamed.des _).mp hessentials.designation
    have hdist := (under_iff hnamed.dist _).mp hessentials.distance
    have hvRel := (under_iff hnamed.vRel _).mp hessentials.velocity
    have hdate := (under_iff hnamed.cd _).mp hessentials.date
    refine ⟨strip string, (rendering_eq_ok_iff runtime _ _).mpr
        ⟨string, hstring, rfl⟩,
      some essentials.distance, (numberOf_eq_ok_some_iff runtime _ _).mpr hdist,
      some essentials.velocity, (numberOf_eq_ok_some_iff runtime _ _).mpr hvRel,
      ?_⟩
    rw [hdate, ← hdesignation]
    exact congrArg Except.ok (if_neg hessentials.nonempty)

/-- The essentials are read without an exception exactly when the designation
has a text and the numbers fit. -/
theorem exists_essentialsOf_iff (hrequired : HasRequired names) :
    (∃ result, essentialsOf runtime strptime (columns names) values =
        .ok result) ↔
      Under names values "des" (Rendered runtime) ∧
        Under names values "dist" (Fits runtime) ∧
          Under names values "v_rel" (Fits runtime) := by
  obtain ⟨des, cd, dist, vRel, hnamed⟩ := exists_named hnames hlong hrequired
  rw [essentialsOf_eq runtime strptime hnames hlong hnamed,
    under_iff hnamed.des, under_iff hnamed.dist, under_iff hnamed.vRel,
    ← exists_numberOf_iff, ← exists_numberOf_iff]
  simp only [bind_eq_ok_iff]
  constructor
  · rintro ⟨result, designation, hdes, distance, hdist, velocity, hvRel, -⟩
    obtain ⟨string, hstring, -⟩ := (rendering_eq_ok_iff runtime _ _).mp hdes
    refine ⟨?_, ⟨distance, hdist⟩, velocity, hvRel⟩
    rw [Rendered, hstring]
    rfl
  · rintro ⟨hdes, ⟨distance, hdist⟩, velocity, hvRel⟩
    obtain ⟨string, hstring⟩ := Option.isSome_iff_exists.mp hdes
    have hrendering := (rendering_eq_ok_iff runtime des _).mpr
      ⟨string, hstring, rfl⟩
    exact ⟨_, strip string, hrendering, distance, hdist, velocity, hvRel, rfl⟩

/-- A row has essentials exactly when it is complete. -/
theorem exists_hasEssentials_iff (hrequired : HasRequired names) :
    (∃ essentials, HasEssentials runtime strptime names values essentials) ↔
      Complete runtime strptime names values := by
  obtain ⟨des, cd, dist, vRel, hnamed⟩ := exists_named hnames hlong hrequired
  have hdes := under_iff hnamed.des
  have hcd := under_iff hnamed.cd
  have hdist := under_iff hnamed.dist
  have hvRel := under_iff hnamed.vRel
  constructor
  · rintro ⟨essentials, hessentials⟩
    obtain ⟨string, hstring, hdesignation⟩ :=
      (hdes _).mp hessentials.designation
    refine ⟨(hdes _).mpr ⟨string, hstring, fun hblank => ?_⟩,
      (hdist _).mpr ⟨_, (hdist _).mp hessentials.distance⟩,
      (hvRel _).mpr ⟨_, (hvRel _).mp hessentials.velocity⟩,
      (hcd _).mpr ?_⟩
    · apply hessentials.nonempty
      rw [hdesignation, hblank]
      rfl
    · rw [Dated, (hcd _).mp hessentials.date]
      rfl
  · intro hcomplete
    obtain ⟨string, hstring, hblank⟩ := (hdes _).mp hcomplete.designation
    obtain ⟨distance, hdistance⟩ := (hdist _).mp hcomplete.distance
    obtain ⟨velocity, hvelocity⟩ := (hvRel _).mp hcomplete.velocity
    obtain ⟨approachAt, hdate⟩ :=
      Option.isSome_iff_exists.mp ((hcd _).mp hcomplete.date)
    refine ⟨⟨(strip string).take 64, distance, velocity, approachAt⟩,
      (hdes _).mpr ⟨string, hstring, rfl⟩, fun hempty => ?_,
      (hdist _).mpr hdistance, (hvRel _).mpr hvelocity, (hcd _).mpr hdate⟩
    rcases List.take_eq_nil_iff.mp hempty with hzero | hnil
    · cases hzero
    · exact hblank hnil

/-! ## The record -/

/-- `_diameter_from_magnitude` computed with real numbers. -/
noncomputable def realArithmetic : Arithmetic F ℝ where
  ofFloat number := runtime.rational number
  literal number := number
  neg := Neg.neg
  mul := HMul.hMul
  div := HDiv.hDiv
  sqrt := Real.sqrt
  tenTo exponent := some (10 ^ exponent)

/-- Both diameters are absent, or the first is at most the second. -/
def DiametersOrdered : Option ℝ → Option ℝ → Prop
  | none, none => True
  | some smallest, some largest => smallest ≤ largest
  | _, _ => False

omit hnames hlong in
theorem diametersOf_ordered (measured magnitude : Option F) :
    ∃ smallest largest,
      diametersOf (realArithmetic runtime) measured magnitude =
          .ok (smallest, largest) ∧
        DiametersOrdered smallest largest := by
  cases measured with
  | some measured => exact ⟨_, _, rfl, le_rfl⟩
  | none =>
      cases magnitude with
      | none => exact ⟨none, none, rfl, trivial⟩
      | some magnitude =>
          refine ⟨_, _, rfl, ?_⟩
          have halbedo : √((lowAlbedo : ℚ) : ℝ) ≤ √((highAlbedo : ℚ) : ℝ) :=
            Real.sqrt_le_sqrt (by norm_num [lowAlbedo, highAlbedo])
          have hpositive : 0 < √((lowAlbedo : ℚ) : ℝ) :=
            Real.sqrt_pos.mpr (by norm_num [lowAlbedo])
          change ((1329 : ℚ) : ℝ) / √((highAlbedo : ℚ) : ℝ) * _ ≤
            ((1329 : ℚ) : ℝ) / √((lowAlbedo : ℚ) : ℝ) * _
          gcongr

/-- A record has both or no diameters, a designation and a name that are not
empty and not too long, and the numbers and the date of its row. -/
structure WellFormed (names : List Text) (values : List (Json F))
    (record : CloseApproachRecord ℝ) : Prop where
  distance : Under names values "dist" fun value => ∃ number,
    runtime.float value = .number (.finite number) ∧
      record.missDistanceAu = runtime.rational number
  velocity : Under names values "v_rel" fun value => ∃ number,
    runtime.float value = .number (.finite number) ∧
      record.relativeVelocityKms = runtime.rational number
  designation : record.designation ≠ [] ∧ record.designation.length ≤ 64
  name : record.name ≠ [] ∧ record.name.length ≤ 128
  diameters : DiametersOrdered record.diameterMinKm record.diameterMaxKm

theorem exists_optionalNumber_iff (name : String) :
    (∃ result, optionalNumber runtime (columns names) values name =
        .ok result) ↔ Under names values name (Fits runtime) := by
  rw [optionalNumber_eq runtime hnames hlong]
  cases hvalue : valueAt names values name with
  | none => simp [Under, hvalue]
  | some value => rw [under_iff hvalue, ← exists_numberOf_iff]

theorem exists_fullNameOf_iff (designation : Text) :
    (∃ result, fullNameOf runtime (columns names) values designation =
        .ok result) ↔ Under names values "fullname" (Rendered runtime) := by
  rw [fullNameOf_eq runtime hnames hlong]
  cases hvalue : valueAt names values "fullname" with
  | none => simp [Under, hvalue]
  | some value =>
      rw [under_iff hvalue, Rendered, Option.isSome_iff_exists]
      simp only [rendering_eq_ok_iff]
      constructor
      · rintro ⟨_, string, hstring, -⟩
        exact ⟨string, hstring⟩
      · rintro ⟨string, hstring⟩
        exact ⟨_, string, hstring, rfl⟩

theorem exists_recordOf_iff (essentials : Essentials F) :
    (∃ record, recordOf runtime (realArithmetic runtime) (columns names)
        values essentials = .ok record) ↔
      Under names values "h" (Fits runtime) ∧
        Under names values "diameter" (Fits runtime) ∧
          Under names values "fullname" (Rendered runtime) := by
  rw [← exists_optionalNumber_iff runtime hnames hlong,
    ← exists_optionalNumber_iff runtime hnames hlong,
    ← exists_fullNameOf_iff runtime hnames hlong essentials.designation]
  simp only [recordOf, bind_eq_ok_iff]
  constructor
  · rintro ⟨record, magnitude, hmagnitude, measured, hmeasured, diameters,
      -, name, hname, -⟩
    exact ⟨⟨magnitude, hmagnitude⟩, ⟨measured, hmeasured⟩, name, hname⟩
  · rintro ⟨⟨magnitude, hmagnitude⟩, ⟨measured, hmeasured⟩, name, hname⟩
    obtain ⟨smallest, largest, hdiameters, -⟩ :=
      diametersOf_ordered runtime measured magnitude
    exact ⟨_, magnitude, hmagnitude, measured, hmeasured, (smallest, largest),
      hdiameters, name, hname, rfl⟩

omit hnames hlong in
theorem wellFormed_of_recordOf {column : Dict Text ℕ}
    {essentials : Essentials F}
    (hessentials : HasEssentials runtime strptime names values essentials)
    (hdesignation : essentials.designation.length ≤ 64)
    {record : CloseApproachRecord ℝ}
    (hrecord : recordOf runtime (realArithmetic runtime) column values
      essentials = .ok record) : WellFormed runtime names values record := by
  simp only [recordOf, bind_eq_ok_iff] at hrecord
  obtain ⟨magnitude, -, measured, -, diameters, hdiameters, name, -,
    hreturn⟩ := hrecord
  obtain ⟨smallest, largest, hordered, horder⟩ :=
    diametersOf_ordered runtime measured magnitude
  obtain rfl := Except.ok.inj (hordered.symm.trans hdiameters)
  obtain rfl := Except.ok.inj hreturn
  refine ⟨fun value hvalue => ?_, fun value hvalue => ?_,
    ⟨hessentials.nonempty, hdesignation⟩, ?_, horder⟩
  · exact ⟨_, hessentials.distance value hvalue, rfl⟩
  · exact ⟨_, hessentials.velocity value hvalue, rfl⟩
  · by_cases hempty : name.take 128 = []
    · simp only [if_pos hempty]
      exact ⟨hessentials.nonempty, by omega⟩
    · simp only [if_neg hempty]
      exact ⟨hempty, List.length_take_le 128 name⟩

/-- A row gives a record exactly when it has essentials of which the rest of
the loop body makes that record. -/
theorem readRow_eq_ok_some_iff {N : Type} (arithmetic : Arithmetic F N)
    (hrequired : HasRequired names) (record : CloseApproachRecord N) :
    readRow runtime arithmetic strptime (columns names) values =
        .ok (some record) ↔
      ∃ essentials, HasEssentials runtime strptime names values essentials ∧
        recordOf runtime arithmetic (columns names) values essentials =
          .ok record := by
  simp only [← essentialsOf_eq_ok_some_iff runtime strptime hnames hlong
    hrequired, readRow, bind_eq_ok_iff]
  constructor
  · rintro ⟨essentials?, hread, hrecord⟩
    cases essentials? with
    | none => cases hrecord
    | some essentials =>
        refine ⟨essentials, hread, ?_⟩
        cases hrest : recordOf runtime arithmetic (columns names) values
            essentials with
        | error raised => simp [hrest, Except.map] at hrecord
        | ok other =>
            simp only [hrest, Except.map, Except.ok.injEq,
              Option.some.injEq] at hrecord
            rw [hrecord]
  · rintro ⟨essentials, hread, hrecord⟩
    refine ⟨some essentials, hread, ?_⟩
    simp only [hrecord, Except.map]

/-- A row is read without an exception exactly when it converts. -/
theorem exists_readRow_iff (hrequired : HasRequired names) :
    (∃ result, readRow runtime (realArithmetic runtime) strptime
        (columns names) values = .ok result) ↔
      Converts runtime strptime names values := by
  have hsome := essentialsOf_eq_ok_some_iff runtime strptime hnames hlong
    hrequired
  have hcomplete := exists_hasEssentials_iff runtime strptime hnames hlong
    hrequired
  have hexists := exists_essentialsOf_iff runtime strptime hnames hlong
    hrequired
  simp only [readRow, bind_eq_ok_iff]
  constructor
  · rintro ⟨result, essentials?, hread, hrest⟩
    obtain ⟨hdes, hdist, hvRel⟩ := hexists.mp ⟨_, hread⟩
    refine ⟨hdes, hdist, hvRel, fun hall => ?_⟩
    obtain ⟨essentials, hessentials⟩ := hcomplete.mpr hall
    obtain rfl := Except.ok.inj (((hsome _).mpr hessentials).symm.trans hread)
    rw [← exists_recordOf_iff runtime hnames hlong essentials]
    cases hrecord : recordOf runtime (realArithmetic runtime) (columns names)
        values essentials with
    | error raised => simp [hrecord, Except.map] at hrest
    | ok record => exact ⟨record, rfl⟩
  · intro hconverts
    obtain ⟨essentials?, hread⟩ := hexists.mpr
      ⟨hconverts.designation, hconverts.distance, hconverts.velocity⟩
    cases essentials? with
    | none => exact ⟨none, none, hread, rfl⟩
    | some essentials =>
        obtain ⟨record, hrecord⟩ :=
          (exists_recordOf_iff runtime hnames hlong essentials).mpr
            (hconverts.optional (hcomplete.mp
              ⟨essentials, (hsome _).mp hread⟩))
        exact ⟨some record, some essentials, hread, by
          simp only [hrecord, Except.map]⟩

/-- No index is out of a row that is long enough. -/
theorem readRow_ne_indexError (hrequired : HasRequired names) :
    readRow runtime (realArithmetic runtime) strptime (columns names) values ≠
      .error .indexError := by
  have hrendering : ∀ value, rendering runtime value ≠ .error .indexError := by
    intro value
    rw [rendering, strOf]
    cases runtime.str value <;> simp [orRaise, Except.map]
  have hnumber : ∀ value, numberOf runtime value ≠ .error .indexError := by
    intro value
    rw [numberOf]
    split <;> simp
  intro hraised
  obtain ⟨des, cd, dist, vRel, hnamed⟩ := exists_named hnames hlong hrequired
  rw [readRow, essentialsOf_eq runtime strptime hnames hlong hnamed] at hraised
  rcases bind_eq_error_iff.mp hraised with hessentials | ⟨result, -, hrecord⟩
  · simp only [bind_eq_error_iff, hrendering, hnumber, false_or] at hessentials
    obtain ⟨_, -, _, -, _, -, hreturn⟩ := hessentials
    cases hreturn
  · cases result with
    | none => cases hrecord
    | some essentials =>
        cases hrest : recordOf runtime (realArithmetic runtime)
            (columns names) values essentials with
        | ok record => simp [hrest, Except.map] at hrecord
        | error raised =>
            obtain rfl : raised = .indexError := by
              simpa [hrest, Except.map] using hrecord
            have hoptional : ∀ name, optionalNumber runtime (columns names)
                values name ≠ .error .indexError := by
              intro name
              rw [optionalNumber_eq runtime hnames hlong]
              split <;> simp [hnumber]
            have hname : fullNameOf runtime (columns names) values
                essentials.designation ≠ .error .indexError := by
              rw [fullNameOf_eq runtime hnames hlong]
              split <;> simp [hrendering]
            simp only [recordOf, bind_eq_error_iff, hoptional, hname,
              false_or] at hrest
            obtain ⟨magnitude, -, measured, -, hrest⟩ := hrest
            obtain ⟨smallest, largest, hdiameters, -⟩ :=
              diametersOf_ordered runtime measured magnitude
            rcases hrest with hdiameter | ⟨_, -, _, -, hreturn⟩
            · rw [hdiameters] at hdiameter
              cases hdiameter
            · cases hreturn

end Reading

/-! ## The table -/

section Table

variable {F N : Type} (runtime : Runtime F) (arithmetic : Arithmetic F N)
  (strptime : String → Text → Option Instant)

/-- A payload with this header and these rows. -/
def HasTable (names : List Text) (rows : List (Json F))
    (payload : Dict Text (Json F)) : Prop :=
  runtime.orElse (getOrNone payload "fields") (.list []) =
      .list (names.map .str) ∧
    runtime.orElse (getOrNone payload "data") (.list []) = .list rows

variable {names : List Text} (hnames : names.Nodup)
include hnames

/-- The parser reads the rows one by one. -/
theorem parseCloseApproaches_eq {rows : List (Json F)}
    {payload : Dict Text (Json F)}
    (htable : HasTable runtime names rows payload) :
    parseCloseApproaches runtime arithmetic strptime payload =
      if HasRequired names then
        (rows.mapM (approachOf runtime arithmetic strptime names.length
          (columns names))).map List.reduceOption
      else .ok [] := by
  have hrequired : (required.all fun name =>
      (Dict.get (columns names) (text name)).isSome) = true ↔
        HasRequired names := by
    rw [List.all_eq_true]
    simp only [isSome_get_columns hnames]
    rfl
  rw [parseCloseApproaches]
  rw [htable.1, htable.2]
  change (do
    let column ← columnsOf runtime (names.map .str)
    if required.all fun name => (Dict.get column (text name)).isSome then
      let rows ← orRaise .typeError (iterate (Value.list rows))
      let records ← rows.mapM (approachOf runtime arithmetic strptime
        (names.map Value.str).length column)
      return records.reduceOption
    else return []) = _
  rw [columnsOf_names, List.length_map]
  by_cases hall : HasRequired names
  · rw [if_pos hall]
    change (if required.all fun name =>
      (Dict.get (columns names) (text name)).isSome then _ else _) = _
    rw [if_pos (hrequired.mpr hall)]
    cases hrows : rows.mapM (approachOf runtime arithmetic strptime
      names.length (columns names)) <;>
      simp [iterate, orRaise, bind, Except.bind, hrows, Except.map, pure,
        Except.pure]
  · rw [if_neg hall]
    exact if_neg (mt hrequired.mp hall)

/-- The order of the columns does not matter. -/
theorem parse_permuted {order : List ℕ}
    (horder : order.Perm (List.range names.length)) {rows : List (Json F)}
    {payload permutedPayload : Dict Text (Json F)}
    (htable : HasTable runtime names rows payload)
    (hpermuted : HasTable runtime (permuted order names)
      (rows.map (permutedRow order)) permutedPayload) :
    parseCloseApproaches runtime arithmetic strptime permutedPayload =
      parseCloseApproaches runtime arithmetic strptime payload := by
  have hperm := perm_permuted horder names
  have hrequired : HasRequired (permuted order names) ↔ HasRequired names :=
    forall₂_congr fun name _ => hperm.mem_iff
  rw [parseCloseApproaches_eq runtime arithmetic strptime hnames htable,
    parseCloseApproaches_eq runtime arithmetic strptime
      (hperm.nodup_iff.mpr hnames) hpermuted]
  simp only [hrequired, hperm.length_eq, List.mapM_map,
    Function.comp_def, approachOf_permuted runtime arithmetic strptime hnames
      horder]

/-- Concatenated rows give concatenated results. -/
theorem parse_append {first second : List (Json F)}
    {payload firstPayload secondPayload : Dict Text (Json F)}
    (htable : HasTable runtime names (first ++ second) payload)
    (hfirst : HasTable runtime names first firstPayload)
    (hsecond : HasTable runtime names second secondPayload) :
    parseCloseApproaches runtime arithmetic strptime payload = do
      let records ← parseCloseApproaches runtime arithmetic strptime
        firstPayload
      let others ← parseCloseApproaches runtime arithmetic strptime
        secondPayload
      return records ++ others := by
  rw [parseCloseApproaches_eq runtime arithmetic strptime hnames htable,
    parseCloseApproaches_eq runtime arithmetic strptime hnames hfirst,
    parseCloseApproaches_eq runtime arithmetic strptime hnames hsecond]
  by_cases hall : HasRequired names
  · rw [if_pos hall, if_pos hall, if_pos hall, List.mapM_append]
    cases first.mapM (approachOf runtime arithmetic strptime names.length
        (columns names)) with
    | error raised => rfl
    | ok records =>
        cases second.mapM (approachOf runtime arithmetic strptime names.length
            (columns names)) with
        | error raised => rfl
        | ok others =>
            exact congrArg Except.ok (List.reduceOption_append records others)
  · rw [if_neg hall, if_neg hall, if_neg hall]
    rfl

end Table

/-! ## Records of rows with a designation -/

section Designated

variable {F : Type} (runtime : Runtime F)
  (strptime : String → Text → Option Instant)

/-- The result of the parser, with diameters as real numbers. -/
noncomputable abbrev parse (payload : Dict Text (Json F)) :
    Except Raised (List (CloseApproachRecord ℝ)) :=
  parseCloseApproaches runtime (realArithmetic runtime) strptime payload

/-- The payload with this header and these rows. -/
def tableOf (names : List Text) (rows : List (Json F)) :
    Dict Text (Json F) :=
  [(text "fields", .list (names.map .str)), (text "data", .list rows)]

/-- The record is what the row gives on its own. -/
def ComesFrom (names : List Text) (values : List (Json F))
    (record : CloseApproachRecord ℝ) : Prop :=
  parse runtime strptime (tableOf names [.list values]) = .ok [record]

/-- The parser does not index out of a row, does not depend on the order of the
columns, reads the rows one by one, and gives only well-formed records of rows
with a designation. -/
structure ReadsTable (names : List Text) (rows : List (Json F))
    (payload : Dict Text (Json F)) : Prop where
  inBounds : parse runtime strptime payload ≠ .error .indexError
  permutable : ∀ order : List ℕ, order.Perm (List.range names.length) →
    ∀ other, HasTable runtime (permuted order names)
        (rows.map (permutedRow order)) other →
      parse runtime strptime other = parse runtime strptime payload
  concatenable : ∀ first second, rows = first ++ second →
    ∀ firstPayload secondPayload, HasTable runtime names first firstPayload →
      HasTable runtime names second secondPayload →
        parse runtime strptime payload = do
          let records ← parse runtime strptime firstPayload
          let others ← parse runtime strptime secondPayload
          return records ++ others
  wellFormed : ∀ records, parse runtime strptime payload = .ok records →
    ∀ record ∈ records,
      (∃ values, .list values ∈ rows ∧
        ComesFrom runtime strptime names values record) ∧
      ∀ values, .list values ∈ rows →
        ComesFrom runtime strptime names values record →
          Under names values "des" (fun value => value ≠ .null) ∧
            WellFormed runtime names values record

/-- Where no conversion raises, no row that is long enough and complete has a
null designation. -/
def RowsDesignated (names : List Text) (rows : List (Json F)) : Prop :=
  let long := fun values : List (Json F) =>
    .list values ∈ rows ∧ names.length ≤ values.length
  HasRequired names →
    (∀ values, long values → Converts runtime strptime names values) →
      ∀ values, long values → Complete runtime strptime names values →
        Under names values "des" fun value => value ≠ .null

theorem hasTable_tableOf (names : List Text) (rows : List (Json F)) :
    HasTable runtime names rows (tableOf names rows) := by
  have hself : ∀ items : List (Json F),
      runtime.orElse (.list items) (.list []) = .list items := by
    intro items
    cases items <;> rfl
  exact ⟨hself _, hself rows⟩

variable {names : List Text} (hnames : names.Nodup)
include hnames

theorem mem_parse_iff {rows : List (Json F)} {payload : Dict Text (Json F)}
    (htable : HasTable runtime names rows payload)
    {records : List (CloseApproachRecord ℝ)}
    (hrecords : parse runtime strptime payload = .ok records)
    (record : CloseApproachRecord ℝ) :
    record ∈ records ↔ HasRequired names ∧ ∃ values, .list values ∈ rows ∧
      names.length ≤ values.length ∧
        readRow runtime (realArithmetic runtime) strptime (columns names)
          values = .ok (some record) := by
  rw [parse, parseCloseApproaches_eq runtime _ strptime hnames htable]
    at hrecords
  by_cases hrequired : HasRequired names
  · rw [if_pos hrequired] at hrecords
    cases hmap : rows.mapM (approachOf runtime (realArithmetic runtime)
        strptime names.length (columns names)) with
    | error raised => simp [hmap, Except.map] at hrecords
    | ok results =>
        rw [hmap] at hrecords
        obtain rfl := Except.ok.inj hrecords
        rw [mem_reduceOption_of_mapM hmap, and_iff_right hrequired]
        constructor
        · rintro ⟨row, hrow, hrecord⟩
          cases row with
          | list values =>
              rw [approachOf] at hrecord
              split at hrecord
              · cases hrecord
              · next hlong =>
                  exact ⟨values, hrow, not_lt.mp hlong, hrecord⟩
          | _ => cases hrecord
        · rintro ⟨values, hrow, hlong, hrecord⟩
          refine ⟨_, hrow, ?_⟩
          rw [approachOf, if_neg (not_lt.mpr hlong), hrecord]
  · rw [if_neg hrequired] at hrecords
    obtain rfl := Except.ok.inj hrecords
    simp [hrequired]

theorem exists_parse_iff {rows : List (Json F)} {payload : Dict Text (Json F)}
    (htable : HasTable runtime names rows payload)
    (hrequired : HasRequired names) :
    (∃ records, parse runtime strptime payload = .ok records) ↔
      ∀ values, .list values ∈ rows → names.length ≤ values.length →
        Converts runtime strptime names values := by
  rw [parse, parseCloseApproaches_eq runtime _ strptime hnames htable,
    if_pos hrequired]
  have hmap : (∃ records, (rows.mapM (approachOf runtime
        (realArithmetic runtime) strptime names.length
          (columns names))).map List.reduceOption = .ok records) ↔
      ∃ results, rows.mapM (approachOf runtime (realArithmetic runtime)
        strptime names.length (columns names)) = .ok results := by
    cases rows.mapM (approachOf runtime (realArithmetic runtime) strptime
        names.length (columns names)) with
    | error raised => simp [Except.map]
    | ok results => simp [Except.map]
  rw [hmap, exists_mapM_eq_ok_iff]
  constructor
  · intro hall values hrow hlong
    rw [← exists_readRow_iff runtime strptime hnames hlong hrequired]
    obtain ⟨result, hresult⟩ := hall _ hrow
    rw [approachOf, if_neg (not_lt.mpr hlong)] at hresult
    exact ⟨result, hresult⟩
  · intro hall row hrow
    cases row with
    | list values =>
        rw [approachOf]
        split
        · exact ⟨none, rfl⟩
        · next hlong =>
            rw [not_lt] at hlong
            exact (exists_readRow_iff runtime strptime hnames hlong
              hrequired).mpr (hall values hrow hlong)
    | _ => exact ⟨none, rfl⟩

theorem parse_ne_indexError {rows : List (Json F)}
    {payload : Dict Text (Json F)}
    (htable : HasTable runtime names rows payload) :
    parse runtime strptime payload ≠ .error .indexError := by
  rw [parse, parseCloseApproaches_eq runtime _ strptime hnames htable]
  split
  · next hrequired =>
      intro hraised
      cases hmap : rows.mapM (approachOf runtime (realArithmetic runtime)
          strptime names.length (columns names)) with
      | ok results => simp [hmap, Except.map] at hraised
      | error raised =>
          obtain rfl : raised = .indexError := by
            simpa [hmap, Except.map] using hraised
          obtain ⟨row, -, hrow⟩ := exists_of_mapM_eq_error hmap
          cases row with
          | list values =>
              rw [approachOf] at hrow
              split at hrow
              · cases hrow
              · next hlong =>
                  exact readRow_ne_indexError runtime strptime hnames
                    (not_lt.mp hlong) hrequired hrow
          | _ => cases hrow
  · simp

theorem comesFrom_iff (values : List (Json F))
    (record : CloseApproachRecord ℝ) :
    ComesFrom runtime strptime names values record ↔
      HasRequired names ∧ names.length ≤ values.length ∧
        readRow runtime (realArithmetic runtime) strptime (columns names)
          values = .ok (some record) := by
  have htable := hasTable_tableOf runtime names [.list values]
  constructor
  · intro hcomes
    obtain ⟨hrequired, other, hother, hlong, hrecord⟩ := (mem_parse_iff runtime
      strptime hnames htable hcomes record).mp List.mem_cons_self
    obtain rfl : other = values := by simpa using hother
    exact ⟨hrequired, hlong, hrecord⟩
  · rintro ⟨hrequired, hlong, hrecord⟩
    rw [ComesFrom, parse, parseCloseApproaches_eq runtime _ strptime hnames
      htable, if_pos hrequired, List.mapM_cons, approachOf,
      if_neg (not_lt.mpr hlong), hrecord]
    rfl

/-- The table is read as it should exactly when no row that gives a record has a
null designation. -/
theorem readsTable_iff {rows : List (Json F)} {payload : Dict Text (Json F)}
    (htable : HasTable runtime names rows payload) :
    ReadsTable runtime strptime names rows payload ↔
      RowsDesignated runtime strptime names rows := by
  constructor
  · intro hreads hrequired hconverts values hlong hcomplete
    obtain ⟨records, hrecords⟩ := (exists_parse_iff runtime strptime hnames
      htable hrequired).mpr fun values hrow hlong => hconverts values
        ⟨hrow, hlong⟩
    obtain ⟨essentials, hessentials⟩ := (exists_hasEssentials_iff runtime
      strptime hnames hlong.2 hrequired).mpr hcomplete
    obtain ⟨record, hrecord⟩ :=
      (exists_recordOf_iff runtime hnames hlong.2 essentials).mpr
        ((hconverts values hlong).optional hcomplete)
    have hread := (readRow_eq_ok_some_iff runtime strptime hnames hlong.2
      (realArithmetic runtime) hrequired record).mpr
        ⟨essentials, hessentials, hrecord⟩
    have hmem := (mem_parse_iff runtime strptime hnames htable hrecords
      record).mpr ⟨hrequired, values, hlong.1, hlong.2, hread⟩
    have hcomes := (comesFrom_iff runtime strptime hnames values record).mpr
      ⟨hrequired, hlong.2, hread⟩
    exact ((hreads.wellFormed records hrecords record hmem).2 values hlong.1
      hcomes).1
  · intro hdesignated
    refine ⟨parse_ne_indexError runtime strptime hnames htable,
      fun order horder other hother => ?_,
      fun first second hrows firstPayload secondPayload hfirst hsecond => ?_,
      fun records hrecords record hrecord => ?_⟩
    · exact parse_permuted runtime _ strptime hnames horder htable hother
    · subst hrows
      exact parse_append runtime _ strptime hnames htable hfirst hsecond
    · obtain ⟨hrequired, values, hrow, hlong, hread⟩ := (mem_parse_iff runtime
        strptime hnames htable hrecords record).mp hrecord
      refine ⟨⟨values, hrow, (comesFrom_iff runtime strptime hnames values
        record).mpr ⟨hrequired, hlong, hread⟩⟩, ?_⟩
      intro source hsource hcomes
      obtain ⟨-, hlong, hread⟩ :=
        (comesFrom_iff runtime strptime hnames source record).mp hcomes
      obtain ⟨essentials, hessentials, hrest⟩ := (readRow_eq_ok_some_iff runtime
        strptime hnames hlong (realArithmetic runtime) hrequired record).mp
          hread
      have hconverts := (exists_parse_iff runtime strptime hnames htable
        hrequired).mp ⟨records, hrecords⟩
      have hcomplete := (exists_hasEssentials_iff runtime strptime hnames hlong
        hrequired).mp ⟨essentials, hessentials⟩
      refine ⟨hdesignated hrequired (fun values hrow => hconverts values hrow.1
        hrow.2) source ⟨hsource, hlong⟩ hcomplete, ?_⟩
      refine wellFormed_of_recordOf runtime strptime hessentials ?_ hrest
      obtain ⟨des, cd, dist, vRel, hnamed⟩ :=
        exists_named hnames hlong hrequired
      obtain ⟨string, -, hdesignation⟩ :=
        hessentials.designation des hnamed.des
      rw [hdesignation]
      exact List.length_take_le 64 (strip string)

end Designated

/-- ASCII, with zero as the only float. -/
def epochRuntime : Runtime Unit :=
  { unitRuntime with
    float := fun value =>
      match value with
      | .str string =>
          if string = text "0.0" then .number (.finite ()) else .invalid
      | _ => .invalid }

/-- `strptime` on the first instant. -/
def strptimeEpoch (_ : String) (date : Text) : Option Instant :=
  if date = text "1970-Jan-01 00:00" then some 0 else none

/-- The row of an approach with this designation. -/
def epochRow (designation : Json Unit) : List (Json Unit) :=
  [designation, .str (text "1970-Jan-01 00:00"), .str (text "0.0"),
    .str (text "0.0")]

/-- A null designation makes a record of an asteroid named `None`. -/
theorem null_designation_recorded :
    (∃ record, record.designation = text "None" ∧
        parse epochRuntime strptimeEpoch (tableOf (required.map text)
          [.list (epochRow .null)]) = .ok [record]) ∧
      ¬ReadsTable epochRuntime strptimeEpoch (required.map text)
        [.list (epochRow .null)]
        (tableOf (required.map text) [.list (epochRow .null)]) := by
  have hparse : ∃ record, record.designation = text "None" ∧
      parse epochRuntime strptimeEpoch (tableOf (required.map text)
        [.list (epochRow .null)]) = .ok [record] := ⟨_, rfl, rfl⟩
  refine ⟨hparse, fun hreads => ?_⟩
  obtain ⟨record, -, hrecord⟩ := hparse
  obtain ⟨-, hsources⟩ := hreads.wellFormed _ hrecord record
    List.mem_cons_self
  exact (hsources _ List.mem_cons_self hrecord).1 .null rfl rfl

theorem readsTable_epochRow :
    ReadsTable epochRuntime strptimeEpoch (required.map text)
      [.list (epochRow (.str (text "433")))]
      (tableOf (required.map text)
        [.list (epochRow (.str (text "433")))]) := by
  refine (readsTable_iff epochRuntime strptimeEpoch (by decide)
    (hasTable_tableOf epochRuntime _ _)).mpr ?_
  rintro - - values ⟨hrow, -⟩ - value hvalue rfl
  obtain rfl : values = epochRow (.str (text "433")) := by simpa using hrow
  cases hvalue

end UTTG.Jpl
