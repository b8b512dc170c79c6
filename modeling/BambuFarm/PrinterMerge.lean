-- What the merge at the start of the server means. The entry of an id is decided
-- by the last persisted entry and then the configured ones, field by field, and
-- neither the order of a hash map nor a second merge changes the list.
import BambuFarm.PrinterList

open text

namespace bambu_farm_server.printers

/-! ## The reference -/

/-- The entries that decide the entry of an id, in their order. -/
def candidates (configured persisted : List Printer) (id : String) : List Printer :=
  (persisted.filter (·.id = id)).getLast?.toList ++ configured.filter (·.id = id)

/-- The field of the first entry that has it, or of the first entry when none has it. -/
def decided (field : Printer → String) (entries : List Printer) : String :=
  ((entries.find? fun entry => !isBlank (field entry)).or entries.head?).elim "" field

/-- The list that a merge is to give. -/
structure IsMerge (configured persisted merged : List Printer) : Prop where
  ascending : (merged.map (·.id)).Pairwise (· < ·)
  ids : ∀ id, id ∈ merged.map (·.id) ↔ id ∈ configured.map (·.id) ∨ id ∈ persisted.map (·.id)
  name : ∀ entry ∈ merged, entry.name = decided (·.name) (candidates configured persisted entry.id)
  ip : ∀ entry ∈ merged, entry.ip = decided (·.ip) (candidates configured persisted entry.id)
  model : ∀ entry ∈ merged,
    entry.model = decided (·.model) (candidates configured persisted entry.id)
  password : ∀ entry ∈ merged,
    entry.password = decided (·.password) (candidates configured persisted entry.id)

/-! ## The entry of an id -/

/-- The entry of an id in the map. -/
def entryOf (id : String) (merged : List Printer) : Option Printer :=
  merged.find? (·.id = id)

theorem entryOf_updateFirst {key id : String} {f : Printer → Printer}
    (hf : ∀ existing, existing.id = key → (f existing).id = key) (merged : List Printer) :
    entryOf id (updateFirst (fun existing => existing.id = key) f merged) =
      if key = id then (entryOf id merged).map f else entryOf id merged := by
  unfold entryOf
  induction merged with
  | nil => simp [updateFirst]
  | cons x xs ih =>
    unfold updateFirst
    by_cases hx : x.id = key
    · have hfx := hf x hx
      by_cases hk : key = id
      · simp [hx, hfx, hk]
      · simp [hx, hfx, hk]
    · simp only [hx, decide_false, Bool.false_eq_true, if_false]
      by_cases hxi : x.id = id
      · have hk : key ≠ id := fun hk => hx (hxi.trans hk.symm)
        simp [hxi, hk]
      · simp only [List.find?_cons, hxi, decide_false]
        exact ih

/-- An `upsert` concerns the entry of its id only. -/
theorem entryOf_upsert {f : Printer → Printer} {printer : Printer} (id : String)
    (hf : ∀ existing, existing.id = printer.id → (f existing).id = printer.id)
    (merged : List Printer) :
    entryOf id (upsert f printer merged) =
      if printer.id = id then some ((entryOf id merged).elim printer f) else entryOf id merged := by
  unfold upsert
  split
  · rename_i hany
    rw [entryOf_updateFirst hf]
    split
    · rename_i hid
      obtain ⟨existing, hmem, hex⟩ := List.any_eq_true.mp hany
      cases hentry : entryOf id merged with
      | some entry => rfl
      | none =>
        have hno := List.find?_eq_none.mp hentry existing hmem
        simp only [decide_eq_true_eq] at hno hex
        exact absurd (hex.trans hid) hno
    · rfl
  · rename_i hany
    simp only [Bool.not_eq_true, List.any_eq_false, decide_eq_true_eq] at hany
    unfold entryOf
    rw [List.find?_append]
    by_cases hid : printer.id = id
    · have hnone : merged.find? (fun entry => entry.id = id) = none := by
        rw [List.find?_eq_none]
        intro existing hmem
        simpa [hid] using hany existing hmem
      simp [hid, hnone]
    · simp [hid]

/-- So a sequence of them concerns it by those of its id. -/
theorem entryOf_foldl_upsert {f : Printer → Printer → Printer} (id : String)
    (hf : ∀ printer existing, existing.id = printer.id → (f printer existing).id = printer.id)
    (printers merged : List Printer) :
    entryOf id (printers.foldl (fun merged printer => upsert (f printer) printer merged) merged) =
      (printers.filter (·.id = id)).foldl
        (fun entry printer => some (entry.elim printer (f printer))) (entryOf id merged) := by
  induction printers generalizing merged with
  | nil => rfl
  | cons printer printers ih =>
    rw [List.foldl_cons, ih, entryOf_upsert id (hf printer)]
    by_cases hid : printer.id = id
    · simp [hid]
    · simp [hid]

/-- The last of the persisted entries stays. -/
theorem foldl_last (printers : List Printer) (entry : Option Printer) :
    printers.foldl (fun entry printer => some (entry.elim printer fun _ => printer)) entry =
      printers.getLast?.or entry := by
  induction printers using List.reverseRecOn with
  | nil => simp
  | append_singleton printers printer ih =>
    rw [List.foldl_append, ih]
    cases h : printers.getLast?.or entry <;> simp

/-! ## The fields -/

/-- A field that the configured entries can fill. -/
def Fills (field : Printer → String) : Prop :=
  ∀ existing printer, field (merged_entry existing printer) =
    filled (field existing) (field printer)

theorem decided_merged_entry {field : Printer → String} (h : Fills field)
    (existing printer : Printer) (rest : List Printer) :
    decided field (merged_entry existing printer :: rest) =
      decided field (existing :: printer :: rest) := by
  unfold decided
  simp only [List.find?_cons, List.head?_cons, h existing printer]
  by_cases he : isBlank (field existing) = true
  · by_cases hp : isBlank (field printer) = true
    · cases hr : rest.find? (fun entry => !isBlank (field entry)) with
      | none => simp [filled, he, hp, h existing printer]
      | some entry => simp [filled, he, hp]
    · simp [filled, he, hp, h existing printer]
  · simp [filled, he, h existing printer]

theorem decided_singleton (field : Printer → String) (entry : Printer) :
    decided field [entry] = field entry := by
  unfold decided
  simp only [List.find?_cons, List.find?_nil, List.head?_cons]
  split <;> rfl

/-- The fields of an entry that the configured ones were merged into. -/
theorem field_foldl_merged_entry {field : Printer → String} (h : Fills field)
    (configured : List Printer) (entry : Printer) :
    field (configured.foldl merged_entry entry) = decided field (entry :: configured) := by
  induction configured generalizing entry with
  | nil => exact (decided_singleton field entry).symm
  | cons printer configured ih =>
    rw [List.foldl_cons, ih, decided_merged_entry h]

theorem foldl_elim_some (configured : List Printer) (entry : Printer) :
    configured.foldl (fun entry printer =>
      some (entry.elim printer fun existing => merged_entry existing printer)) (some entry) =
      some (configured.foldl merged_entry entry) := by
  induction configured generalizing entry with
  | nil => rfl
  | cons printer configured ih => exact ih _

/-! ## The map -/

/-- The map that is sorted at the end. -/
def mergedMap (configured persisted : List Printer) : List Printer :=
  configured.foldl (fun merged printer =>
    upsert (fun existing => merged_entry existing printer) printer merged)
    (persisted.foldl (fun merged printer => upsert (fun _ => printer) printer merged) [])

/-- The entry of an id is its first candidate, with the others merged into it. -/
theorem entryOf_mergedMap (configured persisted : List Printer) (id : String) :
    entryOf id (mergedMap configured persisted) =
      match candidates configured persisted id with
      | [] => none
      | first :: rest => some (rest.foldl merged_entry first) := by
  have hpersisted : entryOf id (persisted.foldl (fun merged printer =>
      upsert (fun _ => printer) printer merged) []) =
      (persisted.filter (·.id = id)).getLast? := by
    rw [entryOf_foldl_upsert (f := fun printer _ => printer) id (fun _ _ _ => rfl), foldl_last]
    exact Option.or_none
  unfold mergedMap candidates
  rw [entryOf_foldl_upsert (f := fun printer existing => merged_entry existing printer) id
    (fun _ _ h => by simpa only [merged_entry] using h), hpersisted]
  cases (persisted.filter (·.id = id)).getLast? with
  | some entry => exact foldl_elim_some _ entry
  | none =>
    cases configured.filter (·.id = id) with
    | nil => rfl
    | cons printer rest => exact foldl_elim_some rest printer

theorem nodup_mergedMap (configured persisted : List Printer) :
    ((mergedMap configured persisted).map (·.id)).Nodup := by
  apply nodup_foldl_upsert (f := fun printer existing => merged_entry existing printer)
  · intro printer existing _
    simp only [merged_entry]
  · apply nodup_foldl_upsert (f := fun printer _ => printer)
    · intro printer existing h
      exact h.symm
    · simp

theorem merge_perm (order : MapOrder) (configured persisted : List Printer) :
    (merge_printers order configured persisted).Perm (mergedMap configured persisted) :=
  (List.mergeSort_perm _ _).trans (order.perm _)

/-- Each entry of the list is the entry of its id in the map. -/
theorem entryOf_mem {order : MapOrder} {configured persisted : List Printer} {entry : Printer}
    (h : entry ∈ merge_printers order configured persisted) :
    entryOf entry.id (mergedMap configured persisted) = some entry := by
  have hmem := (merge_perm order configured persisted).mem_iff.mp h
  have hnodup := nodup_mergedMap configured persisted
  generalize mergedMap configured persisted = merged at hmem hnodup
  unfold entryOf
  induction merged with
  | nil => cases hmem
  | cons x xs ih =>
    rw [List.map_cons, List.nodup_cons] at hnodup
    by_cases hx : x.id = entry.id
    · rcases List.mem_cons.mp hmem with rfl | hxs
      · simp
      · exact absurd (List.mem_map.mpr ⟨entry, hxs, hx.symm⟩) hnodup.1
    · rcases List.mem_cons.mp hmem with rfl | hxs
      · exact absurd rfl hx
      · simpa [hx] using ih hxs hnodup.2

theorem mem_ids_iff (merged : List Printer) (id : String) :
    id ∈ merged.map (·.id) ↔ entryOf id merged ≠ none := by
  unfold entryOf
  simp only [ne_eq, List.find?_eq_none, List.mem_map, decide_eq_true_eq]
  push Not
  rfl

theorem candidates_eq_nil_iff (configured persisted : List Printer) (id : String) :
    candidates configured persisted id = [] ↔
      id ∉ configured.map (·.id) ∧ id ∉ persisted.map (·.id) := by
  unfold candidates
  simp only [List.append_eq_nil_iff, Option.toList_eq_nil_iff, List.getLast?_eq_none_iff,
    List.filter_eq_nil_iff, decide_eq_true_eq, List.mem_map, not_exists, not_and]
  exact and_comm

/-- A field of an entry of the list is the one that its candidates decide. -/
theorem field_merge {order : MapOrder} {configured persisted : List Printer}
    {field : Printer → String} (hfield : Fills field) {entry : Printer}
    (h : entry ∈ merge_printers order configured persisted) :
    field entry = decided field (candidates configured persisted entry.id) := by
  have hentry := entryOf_mem h
  rw [entryOf_mergedMap] at hentry
  split at hentry
  · cases hentry
  · rename_i first rest hcandidates
    rw [hcandidates, ← field_foldl_merged_entry hfield, Option.some.inj hentry]

/-! ## The list -/

/-- Two lists with the same entries that ascend by id are the same. -/
theorem eq_of_ascending {l m : List Printer} (h : l.Perm m)
    (hl : (l.map (·.id)).Pairwise (· < ·)) (hm : (m.map (·.id)).Pairwise (· < ·)) : l = m := by
  rw [List.pairwise_map] at hl hm
  refine h.eq_of_pairwise ?_ hl hm
  intro a b _ _ hab hba
  exact absurd (lt_trans hab hba) (lt_irrefl _)

theorem isMerge_merge_printers (order : MapOrder) (configured persisted : List Printer) :
    IsMerge configured persisted (merge_printers order configured persisted) where
  ascending := ascending_merge_printers order configured persisted
  ids := by
    intro id
    rw [((merge_perm order configured persisted).map (·.id)).mem_iff, mem_ids_iff,
      entryOf_mergedMap]
    have hnil := candidates_eq_nil_iff configured persisted id
    cases hc : candidates configured persisted id with
    | nil =>
      obtain ⟨hconfigured, hpersisted⟩ := hnil.mp hc
      simp [hconfigured, hpersisted]
    | cons first rest =>
      simp only [hc, reduceCtorEq, false_iff, not_and_or, not_not] at hnil
      simpa using hnil
  name _ h := field_merge (fun _ _ => by simp only [merged_entry]) h
  ip _ h := field_merge (fun _ _ => by simp only [merged_entry]) h
  model _ h := field_merge (fun _ _ => by simp only [merged_entry]) h
  password _ h := field_merge (fun _ _ => by simp only [merged_entry]) h

/-- The map of a list with one entry for an id is the list. -/
theorem mergedMap_of_nodup {printers : List Printer} (h : (printers.map (·.id)).Nodup) :
    mergedMap printers [] = printers := by
  unfold mergedMap
  rw [List.foldl_nil]
  induction printers using List.reverseRecOn with
  | nil => rfl
  | append_singleton printers printer ih =>
    rw [List.map_append, List.nodup_append] at h
    rw [List.foldl_append, ih h.1, List.foldl_cons, List.foldl_nil, upsert, if_neg]
    simp only [List.any_eq_true, decide_eq_true_eq, not_exists, not_and]
    intro existing hmem hid
    exact h.2.2 _ (List.mem_map_of_mem hmem) printer.id (by simp) hid

/-- The merge gives the list of the reference, in any order of the hash map, and a list that
it gave is merged into itself. -/
theorem the_merge_is_the_reference (configured persisted : List Printer) (order : MapOrder) :
    IsMerge configured persisted (merge_printers order configured persisted) ∧
    (∀ order', merge_printers order' configured persisted =
      merge_printers order configured persisted) ∧
    ∀ order', merge_printers order' (merge_printers order configured persisted) [] =
      merge_printers order configured persisted := by
  have hascending := ascending_merge_printers order configured persisted
  refine ⟨isMerge_merge_printers order configured persisted, fun order' => ?_, fun order' => ?_⟩
  · refine eq_of_ascending ?_ (ascending_merge_printers order' configured persisted) hascending
    exact (merge_perm order' configured persisted).trans
      (merge_perm order configured persisted).symm
  · refine eq_of_ascending ?_ (ascending_merge_printers order' _ []) hascending
    have hperm := merge_perm order' (merge_printers order configured persisted) []
    rwa [mergedMap_of_nodup (hascending.imp fun h => ne_of_lt h)] at hperm

example : merge_printers default [⟨"", "printer-1", "10.0.0.5", "C12", "1234"⟩]
    [⟨"Studio", "printer-1", "", "", "5678"⟩] =
      [⟨"Studio", "printer-1", "10.0.0.5", "C12", "5678"⟩] := by decide +kernel

end bambu_farm_server.printers
