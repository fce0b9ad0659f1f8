import Mathlib.Data.List.Induction
import Mathlib.Data.List.Nodup
import ThreeAddress.Inventory.Tables

/-!
# Rows and index of a symbol table

A symbol table keeps its variables twice: as rows, and as an index from names and scopes to places
of rows. `Consistent` says that both hold the same. A record changes the type of one row
(`Consistent.recordRow_old`) or adds one row at the end (`Consistent.recordRow_new`), and keeps the
table consistent (`Consistent.recordRow`).

The rows that a list of records leads to are `rowsOf` the list: one row for each name and scope, in
the order of their first records and with the type of the last one.
-/

namespace ThreeAddress

/-- What tells the rows of a table apart. -/
def Symbol.key (s : Symbol) : String × String := (s.name, s.scope)

/-! ## Lists of records -/

/-- The last record of a name in a scope. -/
def lastRecord? (records : List Symbol) (key : String × String) : Option Symbol :=
  records.reverse.find? fun r => r.key = key

/-- The rows that records lead to. -/
def rowsOf (records : List Symbol) : List Symbol :=
  (records.map Symbol.key).eraseDups.filterMap (lastRecord? records)

/-- A row with the type of a later record, if the record is of its name and scope. -/
def Symbol.retyped (r row : Symbol) : Symbol :=
  if row.key = r.key then { row with ty := r.ty } else row

section
variable {records : List Symbol} {key : String × String} {r : Symbol}

theorem Symbol.key_retyped (r row : Symbol) : (r.retyped row).key = row.key := by
  unfold Symbol.retyped
  split <;> rfl

theorem Symbol.retyped_of_key {row : Symbol} (h : row.key = r.key) : r.retyped row = r := by
  obtain ⟨hn, hs⟩ := Prod.mk.inj h
  rw [Symbol.retyped, if_pos h, hn, hs]

theorem lastRecord?_append (as bs : List Symbol) (key : String × String) :
    lastRecord? (as ++ bs) key = (lastRecord? bs key).or (lastRecord? as key) := by
  simp [lastRecord?, List.find?_append]

theorem lastRecord?_concat (records : List Symbol) (r : Symbol) (key : String × String) :
    lastRecord? (records ++ [r]) key = if r.key = key then some r else lastRecord? records key := by
  rw [lastRecord?_append]
  by_cases h : r.key = key
  · simp [lastRecord?, h]
  · simp [lastRecord?, h]

theorem key_of_lastRecord? (h : lastRecord? records key = some r) : r.key = key := by
  simpa using List.find?_some h

theorem lastRecord?_eq_none : lastRecord? records key = none ↔ key ∉ records.map Symbol.key := by
  simp [lastRecord?]

theorem exists_lastRecord? (h : key ∈ records.map Symbol.key) :
    ∃ r, lastRecord? records key = some r := by
  rw [← Option.ne_none_iff_exists']
  exact fun hn => lastRecord?_eq_none.1 hn h

/-- A pair that is recorded again gives its row another type. -/
theorem rowsOf_concat_old (h : r.key ∈ records.map Symbol.key) :
    rowsOf (records ++ [r]) = (rowsOf records).map r.retyped := by
  have hnew : [r.key].removeAll (records.map Symbol.key) = [] := by
    simp [List.cons_removeAll, h]
  rw [rowsOf, rowsOf, List.map_append, List.map_singleton, List.eraseDups_append, hnew,
    List.eraseDups_nil, List.append_nil, List.map_filterMap]
  refine List.filterMap_congr fun key hkey => ?_
  obtain ⟨row, hrow⟩ := exists_lastRecord? (List.mem_eraseDups.1 hkey)
  obtain rfl := key_of_lastRecord? hrow
  rw [lastRecord?_concat, hrow, Option.map_some]
  by_cases hk : r.key = row.key
  · rw [if_pos hk, Symbol.retyped_of_key hk.symm]
  · rw [if_neg hk, Symbol.retyped, if_neg (Ne.symm hk)]

/-- A pair that is recorded for the first time adds a row at the end. -/
theorem rowsOf_concat_new (h : r.key ∉ records.map Symbol.key) :
    rowsOf (records ++ [r]) = rowsOf records ++ [r] := by
  have hnew : [r.key].removeAll (records.map Symbol.key) = [r.key] := by
    simp [List.cons_removeAll, h]
  have hone : [r.key].eraseDups = [r.key] := rfl
  rw [rowsOf, rowsOf, List.map_append, List.map_singleton, List.eraseDups_append, hnew, hone,
    List.filterMap_append]
  congr 1
  · refine List.filterMap_congr fun key hkey => ?_
    have hne : r.key ≠ key := fun he => h (he ▸ List.mem_eraseDups.1 hkey)
    rw [lastRecord?_concat, if_neg hne]
  · simp [lastRecord?_concat]

/-- Records of other pairs leave the rows as they are and get their own after them. -/
theorem rowsOf_append {as bs : List Symbol}
    (h : ∀ key ∈ as.map Symbol.key, key ∉ bs.map Symbol.key) :
    rowsOf (as ++ bs) = rowsOf as ++ rowsOf bs := by
  have hnew : (bs.map Symbol.key).removeAll (as.map Symbol.key) = bs.map Symbol.key := by
    refine List.filter_eq_self.2 fun key hkey => ?_
    have hne : key ∉ as.map Symbol.key := fun hm => h key hm hkey
    simpa using hne
  rw [rowsOf, rowsOf, rowsOf, List.map_append, List.eraseDups_append, hnew, List.filterMap_append]
  congr 1
  · refine List.filterMap_congr fun key hkey => ?_
    rw [lastRecord?_append, lastRecord?_eq_none.2 (h key (List.mem_eraseDups.1 hkey)),
      Option.none_or]
  · refine List.filterMap_congr fun key hkey => ?_
    obtain ⟨row, hrow⟩ := exists_lastRecord? (List.mem_eraseDups.1 hkey)
    rw [lastRecord?_append, hrow, Option.some_or]

theorem map_key_rowsOf (records : List Symbol) :
    (rowsOf records).map Symbol.key = (records.map Symbol.key).eraseDups := by
  have hself : ∀ key ∈ (records.map Symbol.key).eraseDups,
      (lastRecord? records key).map Symbol.key = some key := by
    intro key hkey
    obtain ⟨row, hrow⟩ := exists_lastRecord? (List.mem_eraseDups.1 hkey)
    rw [hrow, Option.map_some, key_of_lastRecord? hrow]
  rw [rowsOf, List.map_filterMap, List.filterMap_congr hself, List.filterMap_some]

theorem mem_rowsOf : r ∈ rowsOf records ↔ lastRecord? records r.key = some r := by
  rw [rowsOf, List.mem_filterMap]
  constructor
  · rintro ⟨key, -, hr⟩
    rwa [key_of_lastRecord? hr]
  · intro hr
    have hmem : r.key ∈ records.map Symbol.key := by
      by_contra hn
      rw [lastRecord?_eq_none.2 hn] at hr
      cases hr
    exact ⟨r.key, List.mem_eraseDups.2 hmem, hr⟩

end

/-- Where keys are distinct, a change at the place of a key is a change at that key. -/
theorem modify_eq_map {l : List Symbol} (hl : (l.map Symbol.key).Nodup) {slot : Nat} {r : Symbol}
    (h : (l.map Symbol.key)[slot]? = some r.key) :
    l.modify slot (fun row => { row with ty := r.ty }) = l.map r.retyped := by
  refine List.ext_getElem? fun i => ?_
  rw [List.getElem?_modify, List.getElem?_map]
  cases hi : l[i]? with
  | none => rfl
  | some row =>
    have hrow : (l.map Symbol.key)[i]? = some row.key := by rw [List.getElem?_map, hi]; rfl
    have hplace : slot = i ↔ row.key = r.key := by
      obtain ⟨hlt, -⟩ := List.getElem?_eq_some_iff.1 h
      rw [← List.getElem?_inj hlt hl, h, hrow, Option.some.injEq, eq_comm]
    simp [Symbol.retyped, hplace]

theorem getElem?_concat_eq_some {α : Type} {l : List α} {a b : α} {i : Nat} :
    (l ++ [a])[i]? = some b ↔ l[i]? = some b ∨ i = l.length ∧ a = b := by
  rcases Nat.lt_trichotomy i l.length with h | h | h
  · simp [List.getElem?_append_left h, Nat.ne_of_lt h]
  · simp [h]
  · have hout : (l ++ [a])[i]? = none := List.getElem?_eq_none (by simpa [Nat.succ_le_iff] using h)
    simp [hout, List.getElem?_eq_none (Nat.le_of_lt h), Nat.ne_of_gt h]

namespace SymbolTable

/-! ## One record -/

/-- Records a variable that is given as a row. -/
def recordRow (t : SymbolTable) (r : Symbol) : SymbolTable :=
  t.record r.name r.ty r.scope

/-- The names and scopes of the rows. -/
def keys (t : SymbolTable) : List (String × String) :=
  t.toList.map Symbol.key

/-- Rows and index hold the same: no two rows have the same name and scope, and the index holds
those of the rows with their places. -/
structure Consistent (t : SymbolTable) : Prop where
  distinct : t.keys.Nodup
  index (key : String × String) (slot : Nat) : t.index[key]? = some slot ↔ t.keys[slot]? = some key

namespace Consistent

theorem empty : Consistent {} :=
  ⟨by simp [keys, toList], by simp [keys, toList]⟩

variable {t : SymbolTable} {r : Symbol}

theorem index_eq_none (h : Consistent t) {key : String × String} :
    t.index[key]? = none ↔ key ∉ t.keys := by
  rw [Option.eq_none_iff_forall_ne_some, List.mem_iff_getElem?, not_exists]
  exact forall_congr' fun slot => not_congr (h.index key slot)

/-- A record of a pair that has a row changes the type in that row. -/
theorem recordRow_old (h : Consistent t) (hr : r.key ∈ t.keys) :
    (t.recordRow r).toList = t.toList.map r.retyped ∧ (t.recordRow r).index = t.index := by
  obtain ⟨slot, hslot⟩ := List.mem_iff_getElem?.1 hr
  have hi : t.index[(r.name, r.scope)]? = some slot := (h.index _ _).2 hslot
  have hrec : t.recordRow r =
      { t with rows := t.rows.modify slot fun row => { row with ty := r.ty } } := by
    rw [recordRow, record, hi]
  rw [hrec]
  refine ⟨?_, rfl⟩
  rw [toList, Array.toList_modify]
  exact modify_eq_map h.distinct hslot

/-- A record of a pair that has no row adds its row at the end. -/
theorem recordRow_new (h : Consistent t) (hr : r.key ∉ t.keys) :
    (t.recordRow r).toList = t.toList ++ [r] ∧
      (t.recordRow r).index = t.index.insert r.key t.keys.length := by
  have hi : t.index[(r.name, r.scope)]? = none := h.index_eq_none.2 hr
  have hrec : t.recordRow r = ⟨t.rows.push r, t.index.insert r.key t.rows.size⟩ := by
    rw [recordRow, record, hi]
    rfl
  rw [hrec]
  refine ⟨by simp [toList], ?_⟩
  simp [keys, toList]

theorem keys_recordRow_old (h : Consistent t) (hr : r.key ∈ t.keys) :
    (t.recordRow r).keys = t.keys := by
  rw [keys, (h.recordRow_old hr).1, List.map_map]
  exact List.map_congr_left fun row _ => r.key_retyped row

theorem keys_recordRow_new (h : Consistent t) (hr : r.key ∉ t.keys) :
    (t.recordRow r).keys = t.keys ++ [r.key] := by
  rw [keys, (h.recordRow_new hr).1, List.map_append]
  rfl

theorem recordRow (h : Consistent t) (r : Symbol) : Consistent (t.recordRow r) := by
  by_cases hr : r.key ∈ t.keys
  · refine ⟨?_, fun key slot => ?_⟩
    · rw [h.keys_recordRow_old hr]
      exact h.distinct
    · rw [h.keys_recordRow_old hr, (h.recordRow_old hr).2]
      exact h.index key slot
  · refine ⟨?_, fun key slot => ?_⟩
    · rw [h.keys_recordRow_new hr]
      refine List.nodup_append.2 ⟨h.distinct, List.nodup_singleton _, fun key hkey key' hkey' => ?_⟩
      rintro rfl
      exact hr (List.mem_singleton.1 hkey' ▸ hkey)
    · rw [h.keys_recordRow_new hr, (h.recordRow_new hr).2, Std.HashMap.getElem?_insert,
        getElem?_concat_eq_some, ← h.index key slot]
      by_cases hk : r.key = key
      · have hn : t.index[key]? = none := h.index_eq_none.2 (hk ▸ hr)
        simp [hk, hn, eq_comm]
      · simp [hk]

/-- A look-up finds the row of a name in a scope. -/
theorem lookup?_eq_some (h : Consistent t) {name scope : String} {row : Symbol} :
    t.lookup? name scope = some row ↔ row ∈ t.toList ∧ row.key = (name, scope) := by
  have hslot : ∀ slot, t.index[(name, scope)]? = some slot ∧ t.rows[slot]? = some row ↔
      t.rows[slot]? = some row ∧ row.key = (name, scope) := by
    intro slot
    rw [h.index, and_comm]
    refine and_congr_right fun hrow => ?_
    rw [keys, toList, List.getElem?_map, Array.getElem?_toList, hrow, Option.map_some,
      Option.some.injEq]
  rw [lookup?, Option.bind_eq_some_iff, exists_congr hslot, exists_and_right, toList,
    List.mem_iff_getElem?]
  simp only [Array.getElem?_toList]

end Consistent

/-! ## Many records -/

/-- The table that records lead to. -/
def ofRecords (records : List Symbol) : SymbolTable :=
  records.foldl recordRow {}

theorem ofRecords_concat (records : List Symbol) (r : Symbol) :
    ofRecords (records ++ [r]) = (ofRecords records).recordRow r := by
  simp [ofRecords]

theorem consistent_ofRecords (records : List Symbol) : Consistent (ofRecords records) := by
  induction records using List.reverseRecOn with
  | nil => exact .empty
  | append_singleton records r ih =>
    rw [ofRecords_concat]
    exact ih.recordRow r

theorem toList_ofRecords (records : List Symbol) : (ofRecords records).toList = rowsOf records := by
  induction records using List.reverseRecOn with
  | nil => rfl
  | append_singleton records r ih =>
    have h := consistent_ofRecords records
    have hkeys : r.key ∈ (ofRecords records).keys ↔ r.key ∈ records.map Symbol.key := by
      rw [keys, ih, map_key_rowsOf, List.mem_eraseDups]
    rw [ofRecords_concat]
    by_cases hr : r.key ∈ records.map Symbol.key
    · rw [(h.recordRow_old (hkeys.2 hr)).1, ih, rowsOf_concat_old hr]
    · rw [(h.recordRow_new (mt hkeys.1 hr)).1, ih, rowsOf_concat_new hr]

theorem lookup?_ofRecords (records : List Symbol) (name scope : String) :
    (ofRecords records).lookup? name scope = lastRecord? records (name, scope) := by
  refine Option.ext fun row => ?_
  rw [(consistent_ofRecords records).lookup?_eq_some, toList_ofRecords, mem_rowsOf]
  constructor
  · rintro ⟨hrow, hkey⟩
    rwa [← hkey]
  · intro hrow
    have hkey := key_of_lastRecord? hrow
    exact ⟨by rwa [hkey], hkey⟩

/-- Rows and index never drift apart, whatever is recorded: no two rows share name and scope; the
index leads from the names and scopes of the rows, and from no others, to the places of their rows;
a look-up finds a row with the type of the last record of its pair, and nothing where there was no
record; and a record changes one type in place or adds one row at the end. -/
theorem rows_and_index_agree (records : List Symbol) :
    let t := ofRecords records
    t.keys.Nodup ∧
    (∀ key slot, t.index[key]? = some slot ↔ ∃ h : slot < t.rows.size, t.rows[slot].key = key) ∧
    (∀ name scope, t.lookup? name scope = lastRecord? records (name, scope)) ∧
    (∀ name scope row, t.lookup? name scope = some row ↔
      row ∈ t.toList ∧ row.name = name ∧ row.scope = scope) ∧
    (∀ name scope, t.lookup? name scope = none ↔
      ∀ r ∈ records, ¬(r.name = name ∧ r.scope = scope)) ∧
    (∀ r, (t.recordRow r).toList =
      if r.key ∈ t.keys then t.toList.map r.retyped else t.toList ++ [r]) ∧
    (∀ r, (t.recordRow r).index =
      if r.key ∈ t.keys then t.index else t.index.insert r.key t.size) := by
  intro t
  have h : Consistent t := consistent_ofRecords records
  have hlook : ∀ name scope, t.lookup? name scope = lastRecord? records (name, scope) :=
    lookup?_ofRecords records
  refine ⟨h.distinct, fun key slot => ?_, hlook, fun name scope row => ?_, fun name scope => ?_,
    fun r => ?_, fun r => ?_⟩
  · rw [h.index, keys, toList, List.getElem?_map, Array.getElem?_toList, Option.map_eq_some_iff]
    constructor
    · rintro ⟨row, hrow, hkey⟩
      obtain ⟨hslot, rfl⟩ := Array.getElem?_eq_some_iff.1 hrow
      exact ⟨hslot, hkey⟩
    · rintro ⟨hslot, hkey⟩
      exact ⟨_, Array.getElem?_eq_getElem hslot, hkey⟩
  · rw [h.lookup?_eq_some, Symbol.key, Prod.mk.injEq]
  · rw [hlook, lastRecord?_eq_none, List.mem_map, not_exists]
    simp only [not_and, Symbol.key, Prod.mk.injEq]
  · by_cases hr : r.key ∈ t.keys
    · rw [if_pos hr, (h.recordRow_old hr).1]
    · rw [if_neg hr, (h.recordRow_new hr).1]
  · by_cases hr : r.key ∈ t.keys
    · rw [if_pos hr, (h.recordRow_old hr).2]
    · rw [if_neg hr, (h.recordRow_new hr).2, keys, List.length_map, toList, Array.length_toList,
        size]

end SymbolTable

end ThreeAddress
