import UTTG.Core.Table
import UTTG.Core.Transition

/-!
# Keyset pagination

A walk asks for one page after another and takes the key of the last row of each
page as the next cursor, until a page is empty.  An endpoint may read some
cursors as if there were none and refuse others.  A walk over one table lists it
completely exactly when no page of it ends with the key of such a row, and over
tables that change it stays in order and skips no row that all of them have as
long as no page ends with one.
-/

namespace UTTG.Pagination

open Transition

/-- What an endpoint does with some cursors. -/
structure Reading (Id : Type*) where
  /-- The cursor is read as if there were none. -/
  absent : Id → Bool
  /-- The request is refused. -/
  refused : Id → Bool

/-- A cursor that is used as it is. -/
def Reading.Usable {Id : Type*} (reading : Reading Id) (id : Id) : Prop :=
  reading.absent id = false ∧ reading.refused id = false

inductive Progress where
  | walking
  /-- The last page was empty. -/
  | ended
  /-- The last request was refused. -/
  | refused
  deriving DecidableEq

/-- A walk, with the tables that its pages were loaded from. -/
structure Walk {Row Id : Type*} (key : Row → Id) where
  cursor : Option Id
  listed : List Row
  loaded : List (Table key)
  progress : Progress

section Model

variable {Row Id : Type*} [LinearOrder Id] (reading : Reading Id)
  (key : Row → Id) (limit : ℕ)

/-- `ORDER BY key`. -/
def ordered (rows : List Row) : List Row :=
  rows.insertionSort fun left right => key left ≤ key right

/-- `WHERE key > cursor`, unless there is no cursor. -/
def selected (cursor : Option Id) (rows : List Row) : List Row :=
  match cursor with
  | none => rows
  | some id =>
      if reading.absent id then rows else rows.filter fun row => id < key row

/-- `WHERE key > cursor ORDER BY key LIMIT limit`. -/
def page (cursor : Option Id) (rows : List Row) : List Row :=
  (ordered key (selected reading key cursor rows)).take limit

omit [LinearOrder Id] in
variable {key} in
/-- The walk after a page that was loaded from the table. -/
def Walk.receive (walk : Walk key) (table : Table key) (rows : List Row) :
    Walk key :=
  match rows.getLast? with
  | none =>
      { walk with loaded := walk.loaded ++ [table], progress := .ended }
  | some last =>
      { walk with
        cursor := some (key last)
        listed := walk.listed ++ rows
        loaded := walk.loaded ++ [table] }

/-- The next request of a walk, if there is one. -/
def request (walk : Walk key) (table : Table key) : Option (Walk key) :=
  match walk.progress with
  | .walking =>
      if walk.cursor.any reading.refused then
        some { walk with progress := .refused }
      else some (walk.receive table
        (page reading key limit walk.cursor table.rows))
  | _ => none

/-- Walks from no cursor, whose pages are loaded from any tables. -/
def walks : System (Walk key) (Table key) where
  Init walk := walk = ⟨none, [], [], .walking⟩
  step := request reading key limit

/-- Walking over the table ends after some requests, and the rows listed are
those of the table in order. -/
def Completes (table : Table key) : Prop :=
  ∃ count final,
    (walks reading key limit).run ⟨none, [], [], .walking⟩
        (List.replicate count table) = some final ∧
      final.progress = .ended ∧ final.listed = ordered key table.rows

omit [LinearOrder Id] in
/-- The row is the last of its page when the rows are cut into pages. -/
def IsPageEnd (rows : List Row) (row : Row) : Prop :=
  ∃ index, rows[index]? = some row ∧
    (limit ∣ index + 1 ∨ index + 1 = rows.length)

end Model

section Order

variable {Row Id : Type*} [LinearOrder Id] {key : Row → Id}

theorem perm_ordered (key : Row → Id) (rows : List Row) :
    (ordered key rows).Perm rows :=
  List.perm_insertionSort _ rows

theorem mem_ordered {rows : List Row} {row : Row} :
    row ∈ ordered key rows ↔ row ∈ rows :=
  (perm_ordered key rows).mem_iff

/-- Rows with distinct keys are listed in strictly ascending order. -/
theorem pairwise_ordered {rows : List Row} (hdistinct : (rows.map key).Nodup) :
    (ordered key rows).Pairwise fun left right => key left < key right := by
  have htotal : Std.Total fun left right : Row => key left ≤ key right :=
    ⟨fun left right => le_total (key left) (key right)⟩
  have htrans : IsTrans Row fun left right => key left ≤ key right :=
    ⟨fun _ _ _ hfirst hsecond => le_trans hfirst hsecond⟩
  have hweak : (ordered key rows).Pairwise
      fun left right => key left ≤ key right :=
    List.pairwise_insertionSort _ rows
  have hne : (ordered key rows).Pairwise
      fun left right => key left ≠ key right := by
    rw [← List.pairwise_map (f := key) (R := (· ≠ ·))]
    exact ((perm_ordered key rows).map key).nodup_iff.mpr hdistinct
  exact hweak.imp₂ (fun _ _ hle hne => lt_of_le_of_ne hle hne) hne

/-- There is one list of the same rows in strictly ascending order. -/
theorem eq_ordered {rows sorted : List Row} (hperm : sorted.Perm rows)
    (hsorted : sorted.Pairwise fun left right => key left < key right) :
    sorted = ordered key rows := by
  have hdistinct : (rows.map key).Nodup := by
    refine (hperm.map key).nodup_iff.mp ?_
    exact List.pairwise_map.mpr (hsorted.imp fun hlt => ne_of_lt hlt)
  exact List.Perm.eq_of_pairwise
    (fun left right _ _ hfirst hsecond =>
      absurd hsecond (not_lt_of_gt hfirst))
    hsorted (pairwise_ordered hdistinct) (hperm.trans (perm_ordered key rows).symm)

theorem ordered_filter {rows : List Row} (hdistinct : (rows.map key).Nodup)
    (keep : Row → Bool) :
    ordered key (rows.filter keep) = (ordered key rows).filter keep :=
  (eq_ordered ((perm_ordered key rows).filter keep)
    ((pairwise_ordered hdistinct).filter keep)).symm

end Order

section Pages

variable {Row Id : Type*} [LinearOrder Id] {reading : Reading Id}
  {key : Row → Id} {limit : ℕ} {table : Table key}

theorem page_none (rows : List Row) :
    page reading key limit none rows = (ordered key rows).take limit := rfl

theorem page_absent {id : Id} (habsent : reading.absent id = true)
    (rows : List Row) :
    page reading key limit (some id) rows = (ordered key rows).take limit := by
  rw [page, selected, if_pos habsent]

/-- The page after a row that is not the end of a walk for the endpoint. -/
theorem page_of_split {before after : List Row} {last : Row}
    (hsplit : ordered key table.rows = before ++ last :: after)
    (hpresent : reading.absent (key last) = false) :
    page reading key limit (some (key last)) table.rows = after.take limit := by
  have hsorted := pairwise_ordered table.distinct
  rw [hsplit, List.pairwise_append, List.pairwise_cons] at hsorted
  obtain ⟨-, ⟨hafter, -⟩, hbefore⟩ := hsorted
  have hnone : before.filter (fun row => key last < key row) = [] := by
    rw [List.filter_eq_nil_iff]
    intro row hrow
    rw [decide_eq_true_eq]
    exact not_lt_of_gt (hbefore row hrow last List.mem_cons_self)
  have hall : after.filter (fun row => key last < key row) = after := by
    rw [List.filter_eq_self]
    intro row hrow
    exact decide_eq_true (hafter row hrow)
  rw [page, selected, if_neg (by simp [hpresent]), ordered_filter table.distinct,
    hsplit, List.filter_append, List.filter_cons, hnone, hall, if_neg (by simp),
    List.nil_append]

theorem lt_of_mem_page {id : Id} (hpresent : reading.absent id = false)
    {rows : List Row} {row : Row}
    (hrow : row ∈ page reading key limit (some id) rows) : id < key row := by
  have hselected := mem_ordered.mp (List.mem_of_mem_take hrow)
  rw [selected, if_neg (by simp [hpresent])] at hselected
  exact of_decide_eq_true (List.mem_filter.mp hselected).2

theorem distinct_selected (cursor : Option Id) (table : Table key) :
    ((selected reading key cursor table.rows).map key).Nodup := by
  cases cursor with
  | none => exact table.distinct
  | some id =>
      rw [selected]
      split
      · exact table.distinct
      · exact (List.filter_sublist.map key).nodup table.distinct

theorem pairwise_page (cursor : Option Id) (table : Table key) :
    (page reading key limit cursor table.rows).Pairwise
      fun left right => key left < key right :=
  (pairwise_ordered (distinct_selected cursor table)).sublist
    (List.take_sublist _ _)

/-- A row after the cursor is on the page, unless the page is full and ends
before it. -/
theorem mem_page_or_lt (hlimit : 0 < limit) {cursor : Option Id}
    {row : Row} (hselected : row ∈ selected reading key cursor table.rows) :
    row ∈ page reading key limit cursor table.rows ∨
      ∃ last, (page reading key limit cursor table.rows).getLast? = some last ∧
        key last < key row := by
  have hordered : row ∈ ordered key (selected reading key cursor table.rows) :=
    mem_ordered.mpr hselected
  have hsorted := pairwise_ordered
    (@distinct_selected _ _ _ reading _ cursor table)
  rw [page]
  generalize ordered key (selected reading key cursor table.rows) = rows at *
  rw [← List.take_append_drop limit rows, List.mem_append] at hordered
  rcases hordered with htaken | hdropped
  · exact .inl htaken
  · right
    rw [← List.take_append_drop limit rows, List.pairwise_append] at hsorted
    obtain ⟨last, hlast⟩ : ∃ last, (rows.take limit).getLast? = some last := by
      rw [← Option.isSome_iff_exists, List.getLast?_isSome, ne_eq,
        List.take_eq_nil_iff]
      rintro (hzero | hnil)
      · omega
      · simp [hnil] at hdropped
    exact ⟨last, hlast,
      hsorted.2.2 last (List.mem_of_getLast? hlast) row hdropped⟩

end Pages

/-! ## Walks over one table -/

section Static

variable {Row Id : Type*} [LinearOrder Id] {reading : Reading Id}
  {key : Row → Id} {limit : ℕ} {table : Table key}

omit [LinearOrder Id] in
theorem receive_nil (walk : Walk key) (table : Table key) :
    walk.receive table [] =
      { walk with loaded := walk.loaded ++ [table], progress := .ended } := rfl

omit [LinearOrder Id] in
theorem receive_of_getLast? {rows : List Row} {last : Row}
    (hlast : rows.getLast? = some last) (walk : Walk key) (table : Table key) :
    walk.receive table rows =
      { walk with
        cursor := some (key last)
        listed := walk.listed ++ rows
        loaded := walk.loaded ++ [table] } := by
  rw [Walk.receive, hlast]

omit [LinearOrder Id] in
theorem listed_receive (walk : Walk key) (table : Table key)
    (rows : List Row) :
    (walk.receive table rows).listed = walk.listed ++ rows := by
  cases hlast : rows.getLast? with
  | none =>
      rw [List.getLast?_eq_none_iff.mp hlast, receive_nil, List.append_nil]
  | some last => rw [receive_of_getLast? hlast]

/-- What is still to be listed of the table, and the next page is its start. -/
structure Remaining (reading : Reading Id) (limit : ℕ) (table : Table key)
    (rows : List Row) (walk : Walk key) : Prop where
  walking : walk.progress = .walking
  accepted : walk.cursor.any reading.refused = false
  listed : walk.listed ++ rows = ordered key table.rows
  page : page reading key limit walk.cursor table.rows = rows.take limit

theorem remaining_start :
    Remaining reading limit table (ordered key table.rows)
      ⟨none, [], [], .walking⟩ where
  walking := rfl
  accepted := rfl
  listed := rfl
  page := page_none table.rows

theorem Remaining.request_eq {rows : List Row} {walk : Walk key}
    (hremaining : Remaining reading limit table rows walk) :
    (walks reading key limit).step walk table =
      some (walk.receive table (rows.take limit)) := by
  change request reading key limit walk table = _
  rw [request, hremaining.walking, hremaining.page,
    if_neg (by simp [hremaining.accepted])]

/-- A page that ends with a usable key leaves what follows it. -/
theorem Remaining.receive {rows : List Row} {walk : Walk key}
    (hremaining : Remaining reading limit table rows walk) {last : Row}
    (hlast : (rows.take limit).getLast? = some last)
    (husable : reading.Usable (key last)) :
    Remaining reading limit table (rows.drop limit)
      (walk.receive table (rows.take limit)) := by
  obtain ⟨init, hinit⟩ := List.getLast?_eq_some_iff.mp hlast
  have hsplit : ordered key table.rows =
      (walk.listed ++ init) ++ last :: rows.drop limit := by
    calc ordered key table.rows
        = walk.listed ++ rows := hremaining.listed.symm
      _ = walk.listed ++ (rows.take limit ++ rows.drop limit) := by
          rw [List.take_append_drop]
      _ = (walk.listed ++ init) ++ last :: rows.drop limit := by
          rw [hinit]
          simp
  rw [receive_of_getLast? hlast]
  refine ⟨hremaining.walking, ?_, ?_, page_of_split hsplit husable.1⟩
  · rw [Option.any_some]
    exact husable.2
  · rw [List.append_assoc, List.take_append_drop]
    exact hremaining.listed

/-- The pages of some rows end with the end of the first one and with those of
the others. -/
theorem isPageEnd_iff (hlimit : 0 < limit) {rows : List Row} {last : Row}
    (hlast : (rows.take limit).getLast? = some last) (row : Row) :
    IsPageEnd limit rows row ↔
      row = last ∨ IsPageEnd limit (rows.drop limit) row := by
  rw [List.getLast?_eq_getElem?, List.length_take, List.getElem?_take] at hlast
  split at hlast
  case isFalse => simp at hlast
  case isTrue hindex =>
    obtain ⟨hbound, -⟩ := List.getElem?_eq_some_iff.mp hlast
    constructor
    · rintro ⟨index, hrow, hend⟩
      obtain ⟨hrange, -⟩ := List.getElem?_eq_some_iff.mp hrow
      by_cases hfirst : index + 1 ≤ limit
      · left
        have hsame : index = min limit rows.length - 1 := by
          rcases hend with hdivides | hall
          · have := Nat.le_of_dvd (Nat.succ_pos index) hdivides
            omega
          · omega
        rw [hsame, hlast] at hrow
        exact (Option.some.inj hrow).symm
      · right
        refine ⟨index - limit, ?_, ?_⟩
        · rw [List.getElem?_drop, ← hrow]
          congr 1
          omega
        · rw [List.length_drop]
          rcases hend with hdivides | hall
          · left
            have hshift : index - limit + 1 = index + 1 - limit := by omega
            rw [hshift]
            exact Nat.dvd_sub hdivides (dvd_refl limit)
          · right
            omega
    · rintro (rfl | ⟨index, hrow, hend⟩)
      · refine ⟨min limit rows.length - 1, hlast, ?_⟩
        by_cases hfull : limit ≤ rows.length
        · left
          rw [show min limit rows.length - 1 + 1 = limit by omega]
        · right
          omega
      · rw [List.getElem?_drop] at hrow
        rw [List.length_drop] at hend
        obtain ⟨hrange, -⟩ := List.getElem?_eq_some_iff.mp hrow
        refine ⟨limit + index, hrow, ?_⟩
        rcases hend with hdivides | hall
        · left
          rw [Nat.add_assoc]
          exact (Nat.dvd_add_right (dvd_refl limit)).mpr hdivides
        · right
          omega

/-- From a walk that has listed whole pages, the rest is listed as long as no
page ends with an unusable key. -/
theorem Remaining.completes (hlimit : 0 < limit) {rows : List Row}
    {walk : Walk key} (hremaining : Remaining reading limit table rows walk)
    (husable : ∀ row, IsPageEnd limit rows row → reading.Usable (key row)) :
    ∃ count final, (walks reading key limit).run walk
        (List.replicate count table) = some final ∧
      final.progress = .ended ∧ final.listed = ordered key table.rows := by
  induction hlength : rows.length using Nat.strong_induction_on
    generalizing rows walk with
  | _ length ih =>
    cases hlast : (rows.take limit).getLast? with
    | none =>
        have hempty : rows.take limit = [] := List.getLast?_eq_none_iff.mp hlast
        have hrows : rows = [] := by
          rcases List.take_eq_nil_iff.mp hempty with hzero | hnil
          · omega
          · exact hnil
        refine ⟨1, walk.receive table [], ?_, rfl, ?_⟩
        · rw [List.replicate_one, System.run_singleton, hremaining.request_eq,
            hempty]
        · rw [← hremaining.listed, hrows, List.append_nil, listed_receive,
            List.append_nil]
    | some last =>
        have hsplit := isPageEnd_iff hlimit hlast
        have hnext := hremaining.receive hlast
          (husable last ((hsplit last).mpr (.inl rfl)))
        have hshorter : (rows.drop limit).length < length := by
          have hne : rows ≠ [] := by
            rintro rfl
            simp at hlast
          have := List.length_pos_of_ne_nil hne
          rw [List.length_drop]
          omega
        obtain ⟨count, final, hrun, hended, hlisted⟩ := ih _ hshorter hnext
          (fun row hrow => husable row ((hsplit row).mpr (.inr hrow))) rfl
        refine ⟨count + 1, final, ?_, hended, hlisted⟩
        rw [List.replicate_succ, System.run, hremaining.request_eq]
        exact hrun

theorem listed_prefix_of_step {walk next : Walk key}
    (hstep : (walks reading key limit).step walk table = some next) :
    walk.listed <+: next.listed := by
  change request reading key limit walk table = _ at hstep
  unfold request at hstep
  split at hstep
  · split at hstep
    · obtain rfl := Option.some.inj hstep
      exact List.prefix_refl _
    · obtain rfl := Option.some.inj hstep
      rw [listed_receive]
      exact List.prefix_append _ _
  · simp at hstep

/-- A walk never takes back what it has listed. -/
theorem listed_prefix_of_run {walk final : Walk key}
    {tables : List (Table key)}
    (hrun : (walks reading key limit).run walk tables = some final) :
    walk.listed <+: final.listed := by
  induction tables generalizing walk with
  | nil =>
      obtain rfl : walk = final := by simpa [System.run] using hrun
      exact List.prefix_refl _
  | cons table rest ih =>
      obtain ⟨next, hstep, hrest⟩ := Option.bind_eq_some_iff.mp hrun
      exact (listed_prefix_of_step hstep).trans (ih hrest)

/-- A walk whose cursor is refused never ends. -/
theorem not_ended_of_refused {walk final : Walk key}
    (hwalking : walk.progress = .walking)
    (hrefused : walk.cursor.any reading.refused = true) {count : ℕ}
    (hrun : (walks reading key limit).run walk (List.replicate count table) =
      some final) :
    final.progress ≠ .ended := by
  intro hended
  cases count with
  | zero =>
      obtain rfl := Option.some.inj hrun
      rw [hwalking] at hended
      cases hended
  | succ count =>
      rw [List.replicate_succ, System.run] at hrun
      obtain ⟨next, hstep, hrest⟩ := Option.bind_eq_some_iff.mp hrun
      change request reading key limit walk table = _ at hstep
      rw [request, hwalking, if_pos hrefused] at hstep
      obtain rfl := Option.some.inj hstep
      cases count with
      | zero =>
          obtain rfl := Option.some.inj hrest
          cases hended
      | succ count =>
          rw [List.replicate_succ, System.run] at hrest
          obtain ⟨after, hafter, -⟩ := Option.bind_eq_some_iff.mp hrest
          simp [walks, request] at hafter

/-- The first row of the table has been listed after a page with rows. -/
theorem Remaining.exists_first (hlimit : 0 < limit) {rows : List Row}
    {walk : Walk key} (hremaining : Remaining reading limit table rows walk)
    (hrows : rows ≠ []) :
    ∃ first ∈ (ordered key table.rows).take limit,
      first ∈ walk.listed ++ rows.take limit := by
  obtain ⟨next, others, rfl⟩ := List.exists_cons_of_ne_nil hrows
  rw [← hremaining.listed]
  cases walk.listed with
  | nil =>
      refine ⟨next, ?_, ?_⟩
      · rw [List.nil_append, List.take_cons hlimit]
        exact List.mem_cons_self
      · rw [List.nil_append, List.take_cons hlimit]
        exact List.mem_cons_self
  | cons first rest =>
      refine ⟨first, ?_, ?_⟩
      · rw [List.cons_append, List.take_cons hlimit]
        exact List.mem_cons_self
      · rw [List.cons_append]
        exact List.mem_cons_self

/-- A walk that starts again after a page with rows does not list every row
once. -/
theorem Remaining.not_listed_of_absent (hlimit : 0 < limit) {rows : List Row}
    {walk : Walk key} (hremaining : Remaining reading limit table rows walk)
    {last : Row} (hlast : (rows.take limit).getLast? = some last)
    (habsent : reading.absent (key last) = true)
    (haccepted : reading.refused (key last) = false) {count : ℕ}
    {final : Walk key}
    (hrun : (walks reading key limit).run
      (walk.receive table (rows.take limit)) (List.replicate (count + 1) table) =
        some final) :
    final.listed ≠ ordered key table.rows := by
  intro hlisted
  rw [receive_of_getLast? hlast, List.replicate_succ, System.run] at hrun
  obtain ⟨next, hstep, hrest⟩ := Option.bind_eq_some_iff.mp hrun
  change request reading key limit _ table = _ at hstep
  simp only [request, hremaining.walking, Option.any_some, haccepted,
    page_absent habsent, Bool.false_eq_true, if_false] at hstep
  obtain rfl := Option.some.inj hstep
  have hprefix := listed_prefix_of_run hrest
  rw [listed_receive, hlisted] at hprefix
  have hnodup : (walk.listed ++ rows.take limit ++
      (ordered key table.rows).take limit).Nodup := by
    refine hprefix.sublist.nodup ?_
    exact (pairwise_ordered table.distinct).imp fun hlt heq =>
      absurd (congrArg key heq) (ne_of_lt hlt)
  have hrows : rows ≠ [] := by
    rintro rfl
    simp at hlast
  obtain ⟨first, hagain, hbefore⟩ := hremaining.exists_first hlimit hrows
  exact (List.nodup_append.mp hnodup).2.2 first hbefore first hagain rfl

/-- After a page that ends with an unusable key the walk does not end with every
row listed once: the next request is refused, or it starts again. -/
theorem Remaining.not_completes (hlimit : 0 < limit) {rows : List Row} {walk : Walk key}
    (hremaining : Remaining reading limit table rows walk) {last : Row}
    (hlast : (rows.take limit).getLast? = some last)
    (hunusable : ¬reading.Usable (key last)) {count : ℕ} {final : Walk key}
    (hrun : (walks reading key limit).run
      (walk.receive table (rows.take limit)) (List.replicate count table) =
        some final)
    (hended : final.progress = .ended) :
    final.listed ≠ ordered key table.rows := by
  have hreceived := receive_of_getLast? hlast walk table
  by_cases hrefused : reading.refused (key last) = true
  · refine absurd hended (not_ended_of_refused ?_ ?_ hrun)
    · rw [hreceived]
      exact hremaining.walking
    · rw [hreceived]
      exact hrefused
  · have habsent : reading.absent (key last) = true := by
      by_contra hpresent
      exact hunusable ⟨Bool.eq_false_iff.mpr hpresent,
        Bool.eq_false_iff.mpr hrefused⟩
    cases count with
    | zero =>
        obtain rfl := Option.some.inj hrun
        rw [hreceived] at hended
        exact absurd (hremaining.walking.symm.trans hended) (by simp)
    | succ count =>
        exact hremaining.not_listed_of_absent hlimit hlast habsent
          (Bool.eq_false_iff.mpr hrefused) hrun

theorem Remaining.usable_of_completes (hlimit : 0 < limit) {rows : List Row}
    {walk : Walk key} (hremaining : Remaining reading limit table rows walk)
    {count : ℕ} {final : Walk key}
    (hrun : (walks reading key limit).run walk
      (List.replicate count table) = some final)
    (hended : final.progress = .ended)
    (hlisted : final.listed = ordered key table.rows) :
    ∀ row, IsPageEnd limit rows row → reading.Usable (key row) := by
  induction count generalizing rows walk with
  | zero =>
      obtain rfl := Option.some.inj hrun
      rw [hremaining.walking] at hended
      cases hended
  | succ count ih =>
      intro row hrow
      rw [List.replicate_succ, System.run, hremaining.request_eq] at hrun
      cases hlast : (rows.take limit).getLast? with
      | none =>
          have hrows : rows = [] := by
            rcases List.take_eq_nil_iff.mp (List.getLast?_eq_none_iff.mp hlast)
              with hzero | hnil
            · omega
            · exact hnil
          obtain ⟨index, hindex, -⟩ := hrow
          simp [hrows] at hindex
      | some last =>
          have husable : reading.Usable (key last) := by
            by_contra hunusable
            exact hremaining.not_completes hlimit hlast hunusable hrun hended
              hlisted
          rcases (isPageEnd_iff hlimit hlast row).mp hrow with rfl | hlater
          · exact husable
          · exact ih (hremaining.receive hlast husable) hrun row hlater

/-- A walk over one table lists it completely exactly when no page of the table
ends with an unusable key. -/
theorem completes_iff (hlimit : 0 < limit) (table : Table key) :
    Completes reading key limit table ↔
      ∀ row, IsPageEnd limit (ordered key table.rows) row →
        reading.Usable (key row) := by
  constructor
  · rintro ⟨count, final, hrun, hended, hlisted⟩
    exact remaining_start.usable_of_completes hlimit hrun hended hlisted
  · exact remaining_start.completes hlimit

/-- A page ends with the least key exactly when it is the only row of a page. -/
theorem least_not_page_end_iff (hlimit : 0 < limit) (table : Table key)
    {least : Id} (hleast : ∀ row ∈ table.rows, least ≤ key row) :
    (∀ row, IsPageEnd limit (ordered key table.rows) row → key row ≠ least) ↔
      (least ∈ table.rows.map key → 1 < limit ∧ 1 < table.rows.length) := by
  have hlength : (ordered key table.rows).length = table.rows.length :=
    (perm_ordered key table.rows).length_eq
  have hsorted := pairwise_ordered table.distinct
  have hfirst : ∀ (index : ℕ) (row : Row),
      (ordered key table.rows)[index]? = some row → key row = least →
        index = 0 := by
    intro index row hrow hkey
    by_contra hindex
    obtain ⟨hbound, hget⟩ := List.getElem?_eq_some_iff.mp hrow
    have hless := List.pairwise_iff_getElem.mp hsorted 0 index
      (by omega) hbound (by omega)
    rw [hget, hkey] at hless
    exact absurd hless (not_lt_of_ge (hleast _
      (mem_ordered.mp (List.getElem_mem _))))
  constructor
  · intro hends hmem
    obtain ⟨row, hrow, hkey⟩ := List.mem_map.mp hmem
    obtain ⟨index, hindex⟩ := List.mem_iff_getElem?.mp
      (mem_ordered.mpr hrow : row ∈ ordered key table.rows)
    obtain rfl := hfirst index row hindex hkey
    obtain ⟨hbound, -⟩ := List.getElem?_eq_some_iff.mp hindex
    by_contra hsmall
    refine hends row ⟨0, hindex, ?_⟩ hkey
    by_cases hone : limit = 1
    · exact .inl (by rw [hone])
    · right
      omega
  · rintro hall row ⟨index, hrow, hend⟩ hkey
    obtain rfl := hfirst index row hrow hkey
    obtain ⟨hlarge, hmany⟩ := hall (hkey ▸ List.mem_map_of_mem
      (mem_ordered.mp (List.mem_of_getElem? hrow)))
    rcases hend with hdivides | hlast
    · have := Nat.le_of_dvd Nat.one_pos hdivides
      omega
    · omega

end Static

/-! ## Walks over tables that change -/

section Dynamic

variable {Row Id : Type*} [LinearOrder Id] {reading : Reading Id}
  {key : Row → Id} {limit : ℕ}

/-- The next page would end with the row: it is the `limit`-th row after the
cursor, or the last one if there are fewer. -/
def IsNextEnd (reading : Reading Id) (key : Row → Id) (limit : ℕ)
    (cursor : Option Id) (rows : List Row) (row : Row) : Prop :=
  row ∈ selected reading key cursor rows ∧
    (selected reading key cursor rows).countP (fun other =>
      key other ≤ key row) = min limit (selected reading key cursor rows).length

/-- The page that is loaded next does not end with an unusable key. -/
def EndsUsable (reading : Reading Id) (key : Row → Id) (limit : ℕ)
    (walk : Walk key) (table : Table key) (_ : Walk key) : Prop :=
  ∀ row, IsNextEnd reading key limit walk.cursor table.rows row →
    reading.Usable (key row)

/-- What a walk has listed. -/
structure Sound (reading : Reading Id) (walk : Walk key) : Prop where
  accepted : walk.progress ≠ .refused
  ascending : walk.listed.Pairwise fun left right => key left < key right
  usable : ∀ id ∈ walk.cursor, reading.Usable id
  bounded : ∀ row ∈ walk.listed, ∃ id ∈ walk.cursor, key row ≤ id
  complete : ∀ id, (∀ table ∈ walk.loaded, id ∈ table.rows.map key) →
    id ∈ walk.listed.map key ∨
      walk.progress = .walking ∧ ∀ last ∈ walk.cursor, last < id

theorem sound_start :
    Sound reading (⟨none, [], [], .walking⟩ : Walk key) where
  accepted := by simp
  ascending := List.Pairwise.nil
  usable := by simp
  bounded := by simp
  complete := by simp

theorem mem_selected {cursor : Option Id} {rows : List Row} {row : Row}
    (hrow : row ∈ rows) (hlater : ∀ last ∈ cursor, last < key row) :
    row ∈ selected reading key cursor rows := by
  cases cursor with
  | none => exact hrow
  | some id =>
      rw [selected]
      split
      · exact hrow
      · exact List.mem_filter.mpr ⟨hrow, decide_eq_true (hlater id rfl)⟩

/-- The last row of a page has the greatest key of the page. -/
theorem le_last {rows : List Row}
    (hsorted : rows.Pairwise fun left right => key left < key right)
    {last : Row} (hlast : rows.getLast? = some last) {row : Row}
    (hrow : row ∈ rows) : key row ≤ key last := by
  obtain ⟨init, rfl⟩ := List.getLast?_eq_some_iff.mp hlast
  rcases List.mem_append.mp hrow with hinit | hsame
  · exact le_of_lt ((List.pairwise_append.mp hsorted).2.2 row hinit last
      (List.mem_singleton_self last))
  · rw [List.mem_singleton.mp hsame]

theorem isNextEnd_of_getLast? {cursor : Option Id} {table : Table key}
    {last : Row}
    (hlast : (page reading key limit cursor table.rows).getLast? = some last) :
    IsNextEnd reading key limit cursor table.rows last := by
  have hmem := List.mem_of_getLast? hlast
  have hsorted := pairwise_ordered
    (@distinct_selected _ _ _ reading _ cursor table)
  have hperm := perm_ordered key (selected reading key cursor table.rows)
  refine ⟨mem_ordered.mp (List.mem_of_mem_take hmem), ?_⟩
  rw [page] at hlast hmem
  rw [← hperm.countP_eq, ← hperm.length_eq]
  generalize ordered key (selected reading key cursor table.rows) = rows at *
  have hparts := hsorted
  rw [← List.take_append_drop limit rows, List.pairwise_append] at hparts
  have htaken : (rows.take limit).countP (fun other => key other ≤ key last) =
      min limit rows.length := by
    rw [List.countP_eq_length.mpr, List.length_take]
    intro other hother
    exact decide_eq_true (le_last hparts.1 hlast hother)
  have hdropped : (rows.drop limit).countP
      (fun other => key other ≤ key last) = 0 := by
    rw [List.countP_eq_zero]
    intro other hother
    rw [decide_eq_true_eq]
    exact not_le_of_gt (hparts.2.2 last hmem other hother)
  calc rows.countP (fun other => key other ≤ key last)
      = (rows.take limit ++ rows.drop limit).countP
          (fun other => key other ≤ key last) := by
        rw [List.take_append_drop]
    _ = min limit rows.length := by
        rw [List.countP_append, htaken, hdropped, Nat.add_zero]

/-- Every row of the next page lies after the cursor. -/
theorem Sound.lt_of_mem_page {walk : Walk key} {table : Table key}
    (hsound : Sound reading walk) {row : Row}
    (hrow : row ∈ page reading key limit walk.cursor table.rows) :
    ∀ id ∈ walk.cursor, id < key row := by
  intro id hid
  have hcursor : walk.cursor = some id := hid
  rw [hcursor] at hrow
  exact Pagination.lt_of_mem_page (hsound.usable id hid).1 hrow

/-- A key that was in every table is listed, on the next page, or after it. -/
theorem Sound.complete_page (hlimit : 0 < limit) {walk : Walk key}
    {table : Table key} (hsound : Sound reading walk) {id : Id}
    (hid : ∀ other ∈ walk.loaded ++ [table], id ∈ other.rows.map key) :
    id ∈ walk.listed.map key ∨
      (∃ row ∈ page reading key limit walk.cursor table.rows, key row = id) ∨
      ∃ last, (page reading key limit walk.cursor table.rows).getLast? =
        some last ∧ key last < id := by
  rcases hsound.complete id fun other hother =>
    hid other (List.mem_append_left _ hother) with hlisted | ⟨-, hlater⟩
  · exact .inl hlisted
  · right
    obtain ⟨row, hrow, rfl⟩ := List.mem_map.mp
      (hid table (List.mem_append_right _ (List.mem_singleton_self table)))
    rcases mem_page_or_lt hlimit (mem_selected hrow hlater) with
      hpage | hbefore
    · exact .inl ⟨row, hpage, rfl⟩
    · exact .inr hbefore

/-- The next page keeps a walk sound, if it does not end with an unusable key. -/
theorem Sound.receive (hlimit : 0 < limit) {walk : Walk key}
    {table : Table key} (hsound : Sound reading walk)
    (hwalking : walk.progress = .walking)
    (husable : ∀ last,
      (page reading key limit walk.cursor table.rows).getLast? = some last →
        reading.Usable (key last)) :
    Sound reading (walk.receive table
      (page reading key limit walk.cursor table.rows)) := by
  have hafter (row : Row) :
      row ∈ page reading key limit walk.cursor table.rows →
        ∀ id ∈ walk.cursor, id < key row := hsound.lt_of_mem_page
  have hcomplete (id : Id) :
      (∀ other ∈ walk.loaded ++ [table], id ∈ other.rows.map key) → _ :=
    hsound.complete_page hlimit
  have hsorted : (page reading key limit walk.cursor table.rows).Pairwise
      fun left right => key left < key right := pairwise_page _ table
  generalize page reading key limit walk.cursor table.rows = rows at *
  cases hlast : rows.getLast? with
  | none =>
      obtain rfl := List.getLast?_eq_none_iff.mp hlast
      rw [receive_nil]
      refine ⟨by simp, hsound.ascending, hsound.usable, hsound.bounded,
        fun id hid => .inl ?_⟩
      rcases hcomplete id hid with hlisted | ⟨row, hrow, -⟩ | ⟨last, hnone, -⟩
      · exact hlisted
      · cases hrow
      · simp at hnone
  | some last =>
      rw [receive_of_getLast? hlast]
      refine ⟨by rw [hwalking]; simp, ?_, ?_, ?_, ?_⟩
      · refine List.pairwise_append.mpr ⟨hsound.ascending, hsorted, ?_⟩
        intro row hrow other hother
        obtain ⟨id, hid, hle⟩ := hsound.bounded row hrow
        exact lt_of_le_of_lt hle (hafter other hother id hid)
      · intro id hid
        obtain rfl := Option.some.inj hid
        exact husable last hlast
      · intro row hrow
        refine ⟨key last, rfl, ?_⟩
        rcases List.mem_append.mp hrow with hlisted | hpage
        · obtain ⟨id, hid, hle⟩ := hsound.bounded row hlisted
          exact le_of_lt (lt_of_le_of_lt hle
            (hafter last (List.mem_of_getLast? hlast) id hid))
        · exact le_last hsorted hlast hpage
      · intro id hid
        rw [List.map_append, List.mem_append]
        rcases hcomplete id hid with hlisted | ⟨row, hrow, rfl⟩ |
          ⟨other, hother, hlater⟩
        · exact .inl (.inl hlisted)
        · exact .inl (.inr (List.mem_map_of_mem hrow))
        · right
          obtain rfl := Option.some.inj (hlast.symm.trans hother)
          refine ⟨hwalking, fun cursor hcursor => ?_⟩
          obtain rfl := Option.some.inj hcursor
          exact hlater

theorem Sound.step (hlimit : 0 < limit) {walk next : Walk key}
    {table : Table key} (hsound : Sound reading walk)
    (hstep : (walks reading key limit).step walk table = some next)
    (hends : EndsUsable reading key limit walk table next) :
    Sound reading next := by
  change request reading key limit walk table = _ at hstep
  unfold request at hstep
  split at hstep
  case h_2 => simp at hstep
  case h_1 hwalking =>
    have haccepted : walk.cursor.any reading.refused = false := by
      cases hcursor : walk.cursor with
      | none => rfl
      | some id => exact (hsound.usable id hcursor).2
    rw [if_neg (by simp [haccepted])] at hstep
    obtain rfl := Option.some.inj hstep
    exact hsound.receive hlimit hwalking fun last hlast =>
      hends last (isNextEnd_of_getLast? hlast)

/-- While no page ends with an unusable key, a walk lists strictly ascending
keys, and once it has ended every key that was in each of its tables. -/
theorem sound_of_reachable (hlimit : 0 < limit) {walk : Walk key}
    (hreach : (walks reading key limit).ReachableVia
      (EndsUsable reading key limit) walk) :
    Sound reading walk :=
  System.ReachableVia.invariant (Sound reading)
    (fun _ hinit => hinit ▸ sound_start)
    (fun _ _ _ hsound hstep hends => hsound.step hlimit hstep hends) hreach

end Dynamic

end UTTG.Pagination
