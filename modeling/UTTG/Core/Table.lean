import Mathlib

/-!
# Tables with a primary key

A table is a list of rows with pairwise distinct keys; the order of the list
carries no meaning.  Inserting a present key is refused, updates keep the key
of the row they change, an upsert inserts or updates, and a delete keeps the
rows that do not match.  Each operation is described by what `find` returns
afterwards.
-/

namespace UTTG

/-- Rows with pairwise distinct keys. -/
structure Table {Row Key : Type*} (key : Row → Key) where
  rows : List Row
  distinct : (rows.map key).Nodup

namespace Table

variable {Row Key : Type*} {key : Row → Key}

def empty : Table key := ⟨[], List.nodup_nil⟩

variable [DecidableEq Key]

/-- The row with this key. -/
def find (table : Table key) (id : Key) : Option Row :=
  table.rows.find? fun row => key row = id

/-- `INSERT`: refused when the key is present. -/
def insert (table : Table key) (row : Row) : Option (Table key) :=
  if hpresent : key row ∈ table.rows.map key then none
  else some ⟨table.rows ++ [row], by
    rw [List.map_append, List.map_singleton]
    exact List.Nodup.append table.distinct (List.nodup_singleton _)
      (by simpa using hpresent)⟩

/-- `UPDATE … WHERE key = id` with a change that keeps the key. -/
def modify (table : Table key) (id : Key) (change : Row → Row)
    (hkey : ∀ row, key (change row) = key row) : Table key where
  rows := table.rows.map fun row => if key row = id then change row else row
  distinct := by
    have hkeys : key ∘ (fun row => if key row = id then change row else row) =
        key := by
      funext row
      by_cases hid : key row = id
      · simp only [Function.comp_apply, if_pos hid, hkey]
      · simp only [Function.comp_apply, if_neg hid]
    rw [List.map_map, hkeys]
    exact table.distinct

/-- `DELETE … WHERE NOT keep`. -/
def filter (table : Table key) (keep : Row → Bool) : Table key where
  rows := table.rows.filter keep
  distinct := (List.filter_sublist.map key).nodup table.distinct

/-- `SELECT count(*) … WHERE selected`. -/
def count (table : Table key) (selected : Row → Bool) : ℕ :=
  table.rows.countP selected

omit [DecidableEq Key] in
/-- A list with distinct keys contains at most one row for each key. -/
theorem eq_of_mem (table : Table key) {left right : Row}
    (hleft : left ∈ table.rows) (hright : right ∈ table.rows)
    (hkey : key left = key right) : left = right :=
  List.inj_on_of_nodup_map table.distinct hleft hright hkey

theorem find_eq_some_iff (table : Table key) (id : Key) (row : Row) :
    table.find id = some row ↔ row ∈ table.rows ∧ key row = id := by
  constructor
  · intro hfind
    exact ⟨List.mem_of_find?_eq_some hfind,
      by simpa using List.find?_some hfind⟩
  · rintro ⟨hmem, rfl⟩
    cases hfind : table.find (key row) with
    | none =>
        have hnone := List.find?_eq_none.mp hfind row hmem
        simp at hnone
    | some other =>
        have hother : key other = key row := by
          simpa using List.find?_some hfind
        rw [table.eq_of_mem (List.mem_of_find?_eq_some hfind) hmem hother]

/-- Tables in which the same rows are found have the same rows. -/
theorem perm_of_find {left right : Table key}
    (hfind : ∀ id, left.find id = right.find id) :
    left.rows.Perm right.rows := by
  rw [List.perm_ext_iff_of_nodup left.distinct.of_map right.distinct.of_map]
  intro row
  have hleft := left.find_eq_some_iff (key row) row
  have hright := right.find_eq_some_iff (key row) row
  rw [hfind, hright] at hleft
  simpa using hleft.symm

theorem find_eq_none_iff (table : Table key) (id : Key) :
    table.find id = none ↔ id ∉ table.rows.map key := by
  rw [find, List.find?_eq_none]
  simp only [List.mem_map, not_exists, not_and, decide_eq_true_eq]

theorem insert_eq_none_iff (table : Table key) (row : Row) :
    table.insert row = none ↔ table.find (key row) ≠ none := by
  rw [ne_eq, find_eq_none_iff, not_not]
  unfold insert
  split
  · next hpresent => exact iff_of_true rfl hpresent
  · next habsent => exact iff_of_false (by simp) habsent

theorem rows_of_insert {table next : Table key} {row : Row}
    (hinsert : table.insert row = some next) :
    next.rows = table.rows ++ [row] := by
  unfold insert at hinsert
  split at hinsert
  · simp at hinsert
  · rw [← Option.some.inj hinsert]

/-- After an insert the new row is found, and every other row as before. -/
theorem find_insert {table next : Table key} {row : Row}
    (hinsert : table.insert row = some next) (id : Key) :
    next.find id = if key row = id then some row else table.find id := by
  have habsent : table.find (key row) = none := by
    by_contra hpresent
    rw [(table.insert_eq_none_iff row).mpr hpresent] at hinsert
    simp at hinsert
  rw [find, rows_of_insert hinsert, List.find?_append]
  change (table.find id).or _ = _
  by_cases hid : key row = id
  · subst hid
    simp [habsent]
  · simp [hid]

/-- After an update the row is found changed, and every other row as
before. -/
theorem find_modify (table : Table key) (id : Key) (change : Row → Row)
    (hkey : ∀ row, key (change row) = key row) (other : Key) :
    (table.modify id change hkey).find other =
      if other = id then (table.find other).map change
      else table.find other := by
  rw [find, modify, List.find?_map]
  have hsame : (fun row => decide (key row = other)) ∘
      (fun row => if key row = id then change row else row) =
        fun row => decide (key row = other) := by
    funext row
    by_cases hid : key row = id
    · simp only [Function.comp_apply, if_pos hid, hkey]
    · simp only [Function.comp_apply, if_neg hid]
  rw [hsame]
  change Option.map _ (table.find other) = _
  cases hfind : table.find other with
  | none => simp
  | some row =>
      obtain rfl : key row = other := ((table.find_eq_some_iff _ _).mp hfind).2
      by_cases hid : key row = id
      · simp [hid]
      · simp [hid]

/-- After a delete exactly the kept rows are found. -/
theorem find_filter (table : Table key) (keep : Row → Bool) (id : Key) :
    (table.filter keep).find id = (table.find id).filter keep := by
  ext row
  rw [find_eq_some_iff, Option.filter_eq_some_iff, find_eq_some_iff]
  simp only [filter, List.mem_filter]
  exact and_right_comm

omit [DecidableEq Key] in
/-- A delete that matches no row changes nothing. -/
theorem filter_of_forall (table : Table key) {keep : Row → Bool}
    (hkeep : ∀ row ∈ table.rows, keep row = true) :
    table.filter keep = table := by
  cases table
  simpa only [filter, Table.mk.injEq, List.filter_eq_self] using hkeep

theorem count_insert {table next : Table key} {row : Row}
    (hinsert : table.insert row = some next) (selected : Row → Bool) :
    next.count selected =
      table.count selected + if selected row then 1 else 0 := by
  rw [count, rows_of_insert hinsert, List.countP_append, List.countP_singleton]
  rfl

/-- A table around one of its rows. -/
theorem exists_split (table : Table key) {id : Key} {row : Row}
    (hfind : table.find id = some row) :
    ∃ before after, table.rows = before ++ row :: after ∧
      (∀ other ∈ before, key other ≠ id) ∧ ∀ other ∈ after, key other ≠ id := by
  obtain ⟨hmem, rfl⟩ := (table.find_eq_some_iff id row).mp hfind
  obtain ⟨before, after, hrows⟩ := List.append_of_mem hmem
  have hdistinct := table.distinct
  rw [hrows, List.map_append, List.map_cons, List.nodup_append,
    List.nodup_cons] at hdistinct
  obtain ⟨-, ⟨hafter, -⟩, hbefore⟩ := hdistinct
  refine ⟨before, after, hrows, fun other hother => ?_,
    fun other hother hkey => ?_⟩
  · exact hbefore (key other) (List.mem_map_of_mem hother) (key row)
      List.mem_cons_self
  · exact hafter (hkey ▸ List.mem_map_of_mem hother)

/-- An update leaves the rows with other keys as they are. -/
theorem map_of_absent {rows : List Row} {id : Key}
    (change : Row → Row) (habsent : ∀ row ∈ rows, key row ≠ id) :
    rows.map (fun row => if key row = id then change row else row) = rows := by
  calc rows.map (fun row => if key row = id then change row else row)
      = rows.map (fun row => row) := List.map_congr_left fun row hrow =>
        if_neg (habsent row hrow)
    _ = rows := List.map_id' rows

/-- An update moves one row between the selected and the other rows. -/
theorem count_modify (table : Table key) {id : Key} {row : Row}
    (change : Row → Row) (hkey : ∀ row, key (change row) = key row)
    (hfind : table.find id = some row) (selected : Row → Bool) :
    (table.modify id change hkey).count selected +
        (if selected row then 1 else 0) =
      table.count selected + if selected (change row) then 1 else 0 := by
  obtain ⟨before, after, hrows, hbefore, hafter⟩ := table.exists_split hfind
  have hid : key row = id := ((table.find_eq_some_iff id row).mp hfind).2
  have hmodified : (table.modify id change hkey).rows =
      before ++ change row :: after := by
    change table.rows.map _ = _
    rw [hrows, List.map_append, List.map_cons, map_of_absent change hbefore,
      map_of_absent change hafter, if_pos hid]
  rw [count, count, hmodified, hrows]
  simp only [List.countP_append, List.countP_cons]
  omega

/-- An update of an absent key changes nothing. -/
theorem modify_of_absent (table : Table key) {id : Key}
    (change : Row → Row) (hkey : ∀ row, key (change row) = key row)
    (hfind : table.find id = none) : table.modify id change hkey = table := by
  have habsent := (table.find_eq_none_iff id).mp hfind
  have hrows : (table.modify id change hkey).rows = table.rows := by
    refine map_of_absent change fun row hrow hid => habsent ?_
    rw [← hid]
    exact List.mem_map_of_mem hrow
  cases table
  simpa only [modify, Table.mk.injEq] using hrows

/-- An update that leaves the found row as it is changes nothing. -/
theorem modify_of_fixed (table : Table key) {row : Row}
    (change : Row → Row) (hkey : ∀ row, key (change row) = key row)
    (hmem : row ∈ table.rows) (hfixed : change row = row) :
    table.modify (key row) change hkey = table := by
  have hrows : (table.modify (key row) change hkey).rows = table.rows := by
    calc table.rows.map
          (fun other => if key other = key row then change other else other)
        = table.rows.map (fun other => other) :=
          List.map_congr_left fun other hother => by
            by_cases hid : key other = key row
            · rw [if_pos hid, table.eq_of_mem hother hmem hid, hfixed]
            · rw [if_neg hid]
      _ = table.rows := List.map_id' table.rows
  cases table
  simpa only [modify, Table.mk.injEq] using hrows

/-! ## A part of a table -/

omit [DecidableEq Key] in
@[ext]
theorem ext {left right : Table key} (hrows : left.rows = right.rows) :
    left = right := by
  cases left
  cases right
  cases hrows
  rfl

/-- A row that is kept is inserted into the part that is kept. -/
theorem insert_filter {table next : Table key} {row : Row}
    (hinsert : table.insert row = some next) {keep : Row → Bool}
    (hkeep : keep row = true) :
    (table.filter keep).insert row = some (next.filter keep) := by
  have habsent : (table.filter keep).find (key row) = none := by
    have hnone : table.find (key row) = none := by
      by_contra hpresent
      rw [(table.insert_eq_none_iff row).mpr hpresent] at hinsert
      simp at hinsert
    rw [find_filter, hnone, Option.filter_none]
  obtain ⟨part, hpart⟩ := Option.ne_none_iff_exists'.mp
    (mt ((table.filter keep).insert_eq_none_iff row).mp (not_not.mpr habsent))
  rw [hpart, Option.some.injEq]
  ext1
  rw [rows_of_insert hpart]
  simp [filter, rows_of_insert hinsert, hkeep]

/-- A row that is dropped is not seen in the part that is kept. -/
theorem filter_of_insert {table next : Table key} {row : Row}
    (hinsert : table.insert row = some next) {keep : Row → Bool}
    (hdrop : keep row = false) : next.filter keep = table.filter keep := by
  ext1
  simp [filter, rows_of_insert hinsert, hdrop]

/-- An update that does not decide what is kept. -/
theorem filter_modify (table : Table key) (id : Key) (change : Row → Row)
    (hkey : ∀ row, key (change row) = key row) {keep : Row → Bool}
    (hkeep : ∀ row, keep (change row) = keep row) :
    (table.modify id change hkey).filter keep =
      (table.filter keep).modify id change hkey := by
  have hsame : keep ∘ (fun row => if key row = id then change row else row) =
      keep := by
    funext row
    by_cases hid : key row = id
    · simp only [Function.comp_apply, if_pos hid, hkeep]
    · simp only [Function.comp_apply, if_neg hid]
  ext1
  simp only [filter, modify, List.filter_map, hsame]

omit [DecidableEq Key] in
/-- Rows that are all kept are counted in the part that is kept. -/
theorem count_filter (table : Table key) {keep selected : Row → Bool}
    (hkeep : ∀ row, selected row = true → keep row = true) :
    (table.filter keep).count selected = table.count selected := by
  rw [count, count, filter, List.countP_filter]
  apply List.countP_congr
  intro row _
  simpa using hkeep row

/-! ## Upserts -/

/-- One row of `INSERT … ON CONFLICT (key) DO UPDATE`: `merge` changes the row
that is already there. -/
def upsert (table : Table key) (row : Row) (merge : Row → Row)
    (hkey : ∀ row, key (merge row) = key row) : Table key :=
  (table.insert row).getD (table.modify (key row) merge hkey)

theorem find_upsert (table : Table key) (row : Row) (merge : Row → Row)
    (hkey : ∀ row, key (merge row) = key row) (id : Key) :
    (table.upsert row merge hkey).find id =
      if id = key row then some ((table.find id).elim row merge)
      else table.find id := by
  unfold upsert
  cases hinsert : table.insert row with
  | some next =>
      have habsent : table.find (key row) = none := by
        by_contra hpresent
        rw [(table.insert_eq_none_iff row).mpr hpresent] at hinsert
        simp at hinsert
      rw [Option.getD_some, find_insert hinsert]
      by_cases hid : id = key row
      · rw [if_pos hid.symm, if_pos hid, hid, habsent]
        rfl
      · rw [if_neg (Ne.symm hid), if_neg hid]
  | none =>
      have hpresent := (table.insert_eq_none_iff row).mp hinsert
      obtain ⟨old, hold⟩ := Option.ne_none_iff_exists'.mp hpresent
      rw [Option.getD_none, find_modify]
      by_cases hid : id = key row
      · rw [if_pos hid, if_pos hid, hid, hold]
        rfl
      · rw [if_neg hid, if_neg hid]

/-- An upsert whose row is there already, with nothing to change. -/
theorem upsert_of_fixed (table : Table key) {row old : Row}
    (merge : Row → Row) (hkey : ∀ row, key (merge row) = key row)
    (hfind : table.find (key row) = some old) (hfixed : merge old = old) :
    table.upsert row merge hkey = table := by
  have hpresent : table.insert row = none := by
    rw [insert_eq_none_iff, hfind]
    simp
  obtain ⟨hmem, hid⟩ := (table.find_eq_some_iff _ _).mp hfind
  rw [upsert, hpresent, Option.getD_none, ← hid]
  exact table.modify_of_fixed merge hkey hmem hfixed

section Statement

variable {Item : Type*} (new : Item → Row) (merge : Item → Row → Row)
  (hkey : ∀ item row, key (merge item row) = key row)

/-- The rows of one statement, in order. -/
def upsertAll (table : Table key) (items : List Item) : Table key :=
  items.foldl
    (fun table item => table.upsert (new item) (merge item) (hkey item)) table

/-- A whole `INSERT … ON CONFLICT DO UPDATE`, which is rejected when it would
touch one row twice. -/
def insertOnConflict (table : Table key) (items : List Item) :
    Option (Table key) :=
  if (items.map fun item => key (new item)).Nodup then
    some (table.upsertAll new merge hkey items)
  else none

variable {new merge hkey}

theorem find_upsertAll_of_not_mem {items : List Item} {id : Key}
    (hid : id ∉ items.map fun item => key (new item)) (table : Table key) :
    (table.upsertAll new merge hkey items).find id = table.find id := by
  induction items generalizing table with
  | nil => rfl
  | cons item rest ih =>
      rw [List.map_cons, List.mem_cons, not_or] at hid
      change (Table.upsertAll new merge hkey _ rest).find id = _
      rw [ih hid.2, find_upsert, if_neg hid.1]

/-- Each row of a statement with distinct keys is stored, merged into the row
that was there before. -/
theorem find_upsertAll_of_mem {items : List Item}
    (hdistinct : (items.map fun item => key (new item)).Nodup) {item : Item}
    (hmem : item ∈ items) (table : Table key) :
    (table.upsertAll new merge hkey items).find (key (new item)) =
      some ((table.find (key (new item))).elim (new item) (merge item)) := by
  induction items generalizing table with
  | nil => simp at hmem
  | cons head rest ih =>
      rw [List.map_cons, List.nodup_cons] at hdistinct
      change (Table.upsertAll new merge hkey _ rest).find _ = _
      rcases List.mem_cons.mp hmem with rfl | hrest
      · rw [find_upsertAll_of_not_mem hdistinct.1, find_upsert, if_pos rfl]
      · have hne : key (new item) ≠ key (new head) := fun heq =>
          hdistinct.1 (heq ▸ List.mem_map_of_mem hrest)
        rw [ih hdistinct.2 hrest, find_upsert, if_neg hne]

/-- What is found under a key after any rows: those with this key, stored or
merged one after the other. -/
theorem find_upsertAll (items : List Item) (table : Table key) (id : Key) :
    (table.upsertAll new merge hkey items).find id =
      (items.filter fun item => key (new item) = id).foldl
        (fun found item => some (found.elim (new item) (merge item)))
        (table.find id) := by
  induction items generalizing table with
  | nil => rfl
  | cons item rest ih =>
      change (Table.upsertAll new merge hkey _ rest).find id = _
      rw [ih, find_upsert]
      by_cases hid : id = key (new item)
      · simp [hid]
      · simp [hid, Ne.symm hid]

theorem upsertAll_append (first second : List Item) (table : Table key) :
    table.upsertAll new merge hkey (first ++ second) =
      (table.upsertAll new merge hkey first).upsertAll new merge hkey
        second :=
  List.foldl_append

/-- A statement whose rows are all there already changes nothing. -/
theorem upsertAll_of_fixed {items : List Item} (table : Table key)
    (hfixed : ∀ item ∈ items, ∃ old,
      table.find (key (new item)) = some old ∧ merge item old = old) :
    table.upsertAll new merge hkey items = table := by
  induction items with
  | nil => rfl
  | cons item rest ih =>
      obtain ⟨old, hfind, hold⟩ := hfixed item List.mem_cons_self
      have hhead : table.upsert (new item) (merge item) (hkey item) = table :=
        table.upsert_of_fixed (merge item) (hkey item) hfind hold
      change Table.upsertAll new merge hkey
        (table.upsert (new item) (merge item) (hkey item)) rest = table
      rw [hhead]
      exact ih fun other hother => hfixed other (List.mem_cons_of_mem item hother)

end Statement

/-! ## Inserts of new rows -/

/-- One row of `INSERT … ON CONFLICT (key) DO NOTHING`. -/
def insertNew (table : Table key) (row : Row) : Table key :=
  (table.insert row).getD table

/-- A whole `INSERT … ON CONFLICT (key) DO NOTHING`. -/
def insertNewAll (table : Table key) (rows : List Row) : Table key :=
  rows.foldl insertNew table

theorem find_insertNew (table : Table key) (row : Row) (id : Key) :
    (table.insertNew row).find id =
      (table.find id).or (if key row = id then some row else none) := by
  unfold insertNew
  cases hinsert : table.insert row with
  | none =>
      have hpresent := (table.insert_eq_none_iff row).mp hinsert
      rw [Option.getD_none]
      by_cases hid : key row = id
      · subst hid
        obtain ⟨old, hold⟩ := Option.ne_none_iff_exists'.mp hpresent
        rw [hold, Option.some_or]
      · rw [if_neg hid, Option.or_none]
  | some next =>
      have habsent : table.find (key row) = none := by
        by_contra hpresent
        rw [(table.insert_eq_none_iff row).mpr hpresent] at hinsert
        simp at hinsert
      rw [Option.getD_some, find_insert hinsert]
      by_cases hid : key row = id
      · subst hid
        rw [if_pos rfl, if_pos rfl, habsent, Option.none_or]
      · rw [if_neg hid, if_neg hid, Option.or_none]

/-- A row that is there stays, and otherwise the first one of its key is
stored. -/
theorem find_insertNewAll (table : Table key) (rows : List Row) (id : Key) :
    (table.insertNewAll rows).find id =
      (table.find id).or (rows.find? fun row => key row = id) := by
  induction rows generalizing table with
  | nil => exact (Option.or_none).symm
  | cons row rest ih =>
      change ((table.insertNew row).insertNewAll rest).find id = _
      rw [ih, find_insertNew, Option.or_assoc, List.find?_cons]
      by_cases hid : key row = id
      · simp [hid]
      · simp [hid]

/-! ## Rows that overwrite -/

section Overwriting

/-- The last of the rows with this key. -/
def lastWith (key : Row → Key) (rows : List Row) (id : Key) : Option Row :=
  rows.reverse.find? fun row => key row = id

theorem lastWith_append (first second : List Row) (id : Key) :
    lastWith key (first ++ second) id =
      (lastWith key second id).or (lastWith key first id) := by
  rw [lastWith, List.reverse_append, List.find?_append]
  rfl

theorem lastWith_singleton (row : Row) (id : Key) :
    lastWith key [row] id = if id = key row then some row else none := by
  by_cases hid : id = key row
  · simp [lastWith, hid]
  · simp [lastWith, hid, Ne.symm hid]

theorem of_lastWith {rows : List Row} {id : Key} {row : Row}
    (hlast : lastWith key rows id = some row) : row ∈ rows ∧ key row = id := by
  have hkey := List.find?_some hlast
  exact ⟨List.mem_reverse.mp (List.mem_of_find?_eq_some hlast),
    of_decide_eq_true hkey⟩

theorem exists_lastWith {rows : List Row} {row : Row} (hrow : row ∈ rows) :
    ∃ last, lastWith key rows (key row) = some last := by
  rw [← Option.isSome_iff_exists, lastWith, List.find?_isSome]
  exact ⟨row, List.mem_reverse.mpr hrow, decide_eq_true rfl⟩

/-- After rows that replace what they meet, the last one of a key is found, or
what was there before. -/
theorem find_upsertAll_overwriting {merge : Row → Row → Row}
    {hkey : ∀ item row, key (merge item row) = key row} (Good : Row → Prop)
    (hreplaces : ∀ item row, Good item → Good row → key row = key item →
      merge item row = item)
    {items : List Row} (hitems : ∀ item ∈ items, Good item)
    (table : Table key) (htable : ∀ row ∈ table.rows, Good row) (id : Key) :
    (table.upsertAll (fun item => item) merge hkey items).find id =
      (lastWith key items id).or (table.find id) := by
  induction items using List.reverseRecOn with
  | nil => rfl
  | append_singleton items item ih =>
      have hbefore := ih fun other hother =>
        hitems other (List.mem_append_left _ hother)
      have hitem : Good item := hitems item (by simp)
      rw [upsertAll_append, lastWith_append, lastWith_singleton]
      change (Table.upsert _ item (merge item) (hkey item)).find id = _
      rw [find_upsert]
      split
      · rw [Option.some_or, hbefore]
        cases hfound : (lastWith key items id).or (table.find id) with
        | none => rfl
        | some row =>
            have hrow : Good row ∧ key row = id := by
              rcases Option.or_eq_some_iff.mp hfound with hlast | ⟨-, hold⟩
              · obtain ⟨hmem, hid⟩ := of_lastWith hlast
                exact ⟨hitems row (List.mem_append_left _ hmem), hid⟩
              · obtain ⟨hmem, hid⟩ := (table.find_eq_some_iff id row).mp hold
                exact ⟨htable row hmem, hid⟩
            have hsame : key row = key item := by
              rw [hrow.2]
              assumption
            exact congrArg some (hreplaces item row hitem hrow.1 hsame)
      · rw [Option.none_or]
        exact hbefore

end Overwriting

end Table

end UTTG
