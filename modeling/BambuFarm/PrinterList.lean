-- The printer list of the server over whole runs: how it is made at the start
-- from the configured and the persisted printers, what the handlers change in
-- it, and the options that the clients see.
import BambuFarm.Printers
import BambuFarm.Runs
import Mathlib.Data.List.Forall2
import Mathlib.Data.String.Basic

open text frames runs bambu_farm

namespace bambu_farm_server.printers

/-! ## The list at the start -/

/-- A field of an entry, which is filled when it is blank. -/
def filled (existing new : String) : String :=
  if isBlank existing && !isBlank new then new else existing

/-- What `and_modify` does to the entry of a configured printer. -/
def merged_entry (existing printer : Printer) : Printer :=
  { existing with
    name := filled existing.name printer.name
    ip := filled existing.ip printer.ip
    model := filled existing.model printer.model
    password := filled existing.password printer.password }

/-- The entry of the id of the printer, changed by `f` or made anew. -/
def upsert (f : Printer → Printer) (printer : Printer) (merged : List Printer) : List Printer :=
  if merged.any (fun existing => existing.id = printer.id) then
    updateFirst (fun existing => existing.id = printer.id) f merged
  else merged ++ [printer]

/-- The order in which a hash map gives its values is any order. -/
structure MapOrder where
  into_values : List Printer → List Printer
  perm : ∀ merged, (into_values merged).Perm merged

instance : Inhabited MapOrder where
  default := { into_values := List.reverse, perm := List.reverse_perm }

def merge_printers (order : MapOrder) (configured persisted : List Printer) : List Printer :=
  let merged := persisted.foldl (fun merged printer => upsert (fun _ => printer) printer merged) []
  let merged := configured.foldl (fun merged printer =>
    upsert (fun existing => merged_entry existing printer) printer merged) merged
  (order.into_values merged).mergeSort fun left right => left.id ≤ right.id

/-! ## The options -/

def preferred_printer_display_name (printer : Printer) : String :=
  if !isBlank printer.name then printer.name
  else (display_name_from_model_code printer.model).getD ("Bambu " ++ printer.id)

def printer_option (printer : Printer) : PrinterOption where
  dev_name := preferred_printer_display_name printer
  dev_id := printer.id
  model := if isBlank printer.model then "unknown" else printer.model
  host := printer.ip

/-- The options of the list that `get_available_printers` sends. -/
def available_options (printers : List Printer) : List PrinterOption := printers.map printer_option

/-! ## The updates -/

/-- What a handler writes into the list. -/
inductive Update
  | discovery (dev_id : String) (discovered : DiscoveryMatch)
  | password (dev_id password : String)
  deriving DecidableEq

def Update.dev_id : Update → String
  | .discovery dev_id _ => dev_id
  | .password dev_id _ => dev_id

def update (printers : List Printer) : Update → List Printer
  | .discovery dev_id discovered =>
    finalState ((update_printer_discovery dev_id discovered).run printers)
  | .password dev_id password => finalState ((update_printer_password dev_id password).run printers)

/-! ## The laws -/

/-- What stays of an entry: its id, a name and a model that are not blank, and that there
is a password and a host. -/
structure Kept (before later : Printer) : Prop where
  id : later.id = before.id
  name : isBlank before.name = false → later.name = before.name
  model : isBlank before.model = false → later.model = before.model
  password : isBlank before.password = false → isBlank later.password = false
  host : isBlank before.ip = false → isBlank later.ip = false

/-- The laws of the list after some updates. -/
structure Lawful (start : List Printer) (us : List Update) : Prop where
  ids : (after update start us).map (·.id) = start.map (·.id)
  ascending : ((after update start us).map (·.id)).Pairwise (· < ·)
  others : ∀ pre u post, us = pre ++ u :: post →
    List.Forall₂ (fun before later : Printer => before.id ≠ u.dev_id → later = before)
      (after update start pre) (after update start (pre ++ [u]))
  kept : ∀ pre post, us = pre ++ post →
    List.Forall₂ Kept (after update start pre) (after update start us)
  options : (available_options (after update start us)).map (·.dev_id) =
    (after update start us).map (·.id)
  shown : ∀ option ∈ available_options (after update start us),
    isBlank option.dev_name = false ∧ isBlank option.model = false

theorem Kept.refl (printer : Printer) : Kept printer printer :=
  ⟨rfl, fun _ => rfl, fun _ => rfl, fun h => h, fun h => h⟩

theorem Kept.trans {a b c : Printer} (hab : Kept a b) (hbc : Kept b c) : Kept a c where
  id := hbc.id.trans hab.id
  name := by
    intro h
    have hb := hab.name h
    rw [← hb] at h
    exact (hbc.name h).trans hb
  model := by
    intro h
    have hb := hab.model h
    rw [← hb] at h
    exact (hbc.model h).trans hb
  password := fun h => hbc.password (hab.password h)
  host := fun h => hbc.host (hab.host h)

theorem forall₂_trans {α : Type*} {R : α → α → Prop} (h : ∀ a b c, R a b → R b c → R a c)
    {l m n : List α} (hlm : List.Forall₂ R l m) (hmn : List.Forall₂ R m n) :
    List.Forall₂ R l n := by
  induction hlm generalizing n with
  | nil => exact hmn
  | cons hab _ ih =>
    cases hmn with
    | cons hbc hmn => exact .cons (h _ _ _ hab hbc) (ih hmn)

theorem forall₂_updateFirst {α : Type*} {R : α → α → Prop} {p : α → Bool} {f : α → α}
    (hrefl : ∀ x, R x x) (hf : ∀ x, p x = true → R x (f x)) (l : List α) :
    List.Forall₂ R l (updateFirst p f l) := by
  induction l with
  | nil => exact .nil
  | cons x xs ih =>
    unfold updateFirst
    split
    · rename_i hx
      exact .cons (hf x hx) (List.forall₂_same.mpr fun x _ => hrefl x)
    · exact .cons (hrefl x) ih

/-! ## One update -/

/-- The text of an address has its dots. -/
theorem isBlank_to_string (a : Ipv4Addr) : isBlank a.to_string = false := by
  apply not_isBlank_of_mem (c := '.')
  · simp [Ipv4Addr.to_string]
  · decide

theorem kept_discovered_entry (printer : Printer) (discovered : DiscoveryMatch) :
    Kept printer (discovered_entry printer discovered) where
  id := by simp only [discovered_entry]
  name := by
    intro h
    simp [discovered_entry, h]
  model := by
    intro h
    simp [discovered_entry, h]
  password := by
    intro h
    simpa only [discovered_entry] using h
  host := by
    intro _
    simpa only [discovered_entry] using isBlank_to_string discovered.ip

theorem kept_password {password : String} (h : isBlank password = false) (printer : Printer) :
    Kept printer { printer with password } where
  id := rfl
  name := fun _ => rfl
  model := fun _ => rfl
  password := fun _ => h
  host := fun h => h

/-- An update changes nothing, or the entry with its id, of which it keeps what `Kept`
says. -/
theorem update_cases (printers : List Printer) (u : Update) :
    update printers u = printers ∨ ∃ f, (∀ printer, Kept printer (f printer)) ∧
      update printers u = updateFirst (fun printer => printer.id = u.dev_id) f printers := by
  cases u with
  | discovery dev_id discovered =>
    exact Or.inr ⟨_, fun printer => kept_discovered_entry printer discovered, rfl⟩
  | password dev_id password =>
    simp only [update, update_printer_password]
    split
    · exact Or.inl rfl
    · rename_i h
      exact Or.inr ⟨_, kept_password (by simpa using h), rfl⟩

theorem update_kept (printers : List Printer) (u : Update) :
    List.Forall₂ Kept printers (update printers u) := by
  rcases update_cases printers u with h | ⟨f, hf, h⟩
  · rw [h]
    exact List.forall₂_same.mpr fun printer _ => Kept.refl printer
  · rw [h]
    exact forall₂_updateFirst Kept.refl (fun printer _ => hf printer) printers

/-- An update leaves the entries of other ids alone. -/
theorem update_others (printers : List Printer) (u : Update) :
    List.Forall₂ (fun before later : Printer => before.id ≠ u.dev_id → later = before)
      printers (update printers u) := by
  rcases update_cases printers u with h | ⟨f, -, h⟩
  · rw [h]
    exact List.forall₂_same.mpr fun _ _ _ => rfl
  · rw [h]
    apply forall₂_updateFirst
    · intro _ _
      rfl
    · intro printer hid hne
      exact absurd (by simpa using hid) hne

/-! ## The start -/

theorem ids_of_forall₂_kept {before later : List Printer} (h : List.Forall₂ Kept before later) :
    later.map (·.id) = before.map (·.id) := by
  induction h with
  | nil => rfl
  | cons hab _ ih => simp [hab.id, ih]

/-- The map has one entry for an id. -/
theorem nodup_upsert {f : Printer → Printer} {printer : Printer} {merged : List Printer}
    (hf : ∀ existing, existing.id = printer.id → (f existing).id = existing.id)
    (h : (merged.map (·.id)).Nodup) : ((upsert f printer merged).map (·.id)).Nodup := by
  unfold upsert
  split
  · rw [map_updateFirst]
    · exact h
    · intro existing hid
      exact hf existing (by simpa using hid)
  · rename_i hnew
    rw [List.map_append, List.nodup_append]
    refine ⟨h, by simp, ?_⟩
    intro id hid id' hid' heq
    simp only [List.map_cons, List.map_nil, List.mem_singleton] at hid'
    subst hid'
    apply hnew
    obtain ⟨existing, hmem, hex⟩ := List.mem_map.mp hid
    exact List.any_eq_true.mpr ⟨existing, hmem, by simpa using hex.trans heq⟩

theorem nodup_foldl_upsert {f : Printer → Printer → Printer}
    (hf : ∀ printer existing, existing.id = printer.id → (f printer existing).id = existing.id)
    (printers : List Printer) {merged : List Printer} (h : (merged.map (·.id)).Nodup) :
    ((printers.foldl (fun merged printer => upsert (f printer) printer merged) merged).map
      (·.id)).Nodup := by
  induction printers generalizing merged with
  | nil => exact h
  | cons printer printers ih => exact ih (nodup_upsert (hf printer) h)

theorem ascending_merge_printers (order : MapOrder) (configured persisted : List Printer) :
    ((merge_printers order configured persisted).map (·.id)).Pairwise (· < ·) := by
  unfold merge_printers
  extract_lets merged merged'
  have hmerged : (merged.map (·.id)).Nodup := by
    apply nodup_foldl_upsert (f := fun printer _ => printer)
    · intro printer existing h
      exact h.symm
    · simp
  have hmerged' : (merged'.map (·.id)).Nodup := by
    apply nodup_foldl_upsert (f := fun printer existing => merged_entry existing printer)
    · intro printer existing _
      simp only [merged_entry]
    · exact hmerged
  set sorted := (order.into_values merged').mergeSort fun left right => left.id ≤ right.id with hs
  have hperm : sorted.Perm merged' := (List.mergeSort_perm _ _).trans (order.perm merged')
  have hnodup : (sorted.map (·.id)).Nodup := (hperm.map (·.id)).nodup_iff.mpr hmerged'
  have hsorted : sorted.Pairwise fun left right => left.id ≤ right.id := by
    have hle : sorted.Pairwise fun left right => decide (left.id ≤ right.id) = true :=
      List.pairwise_mergeSort
        (fun a b c hab hbc => by simpa using le_trans (by simpa using hab) (by simpa using hbc))
        (fun a b => by simpa using le_total a.id b.id) (order.into_values merged')
    simpa using hle
  rw [List.pairwise_map]
  exact hsorted.imp₂ (fun left right hle hne => lt_of_le_of_ne hle hne)
    (List.pairwise_map.mp hnodup)

/-! ## The options that the clients see -/

theorem isBlank_display_name {model name : String}
    (h : display_name_from_model_code model = some name) : isBlank name = false := by
  unfold display_name_from_model_code at h
  split at h
  all_goals cases h
  all_goals decide

theorem isBlank_preferred_printer_display_name (printer : Printer) :
    isBlank (preferred_printer_display_name printer) = false := by
  unfold preferred_printer_display_name
  split
  · rename_i h
    simpa using h
  · cases hd : display_name_from_model_code printer.model with
    | some name => exact isBlank_display_name hd
    | none =>
      apply not_isBlank_of_mem (c := 'B')
      · simp
      · decide

theorem isBlank_option_model (printer : Printer) :
    isBlank (printer_option printer).model = false := by
  unfold printer_option
  dsimp only
  split
  · decide
  · rename_i h
    simpa using h

/-! ## Whole runs -/

theorem kept_run (start : List Printer) (us : List Update) :
    List.Forall₂ Kept start (after update start us) := by
  induction us using List.reverseRecOn with
  | nil => exact List.forall₂_same.mpr fun printer _ => Kept.refl printer
  | append_singleton us u ih =>
    rw [after_snoc]
    exact forall₂_trans (fun _ _ _ hab hbc => hab.trans hbc) ih (update_kept _ u)

/-- From any start-up merge, every sequence of updates keeps the laws of the list. -/
theorem the_printer_list_stays_lawful (order : MapOrder) (configured persisted : List Printer)
    (us : List Update) : Lawful (merge_printers order configured persisted) us where
  ids := ids_of_forall₂_kept (kept_run _ us)
  ascending := by
    rw [ids_of_forall₂_kept (kept_run _ us)]
    exact ascending_merge_printers order configured persisted
  others := by
    intro pre u post _
    rw [after_snoc]
    exact update_others _ u
  kept := by
    rintro pre post rfl
    rw [after_append]
    exact kept_run _ post
  options := by
    unfold available_options
    rw [List.map_map]
    rfl
  shown := by
    intro option hoption
    obtain ⟨printer, -, rfl⟩ := List.mem_map.mp hoption
    constructor
    · simpa only [printer_option] using isBlank_preferred_printer_display_name printer
    · exact isBlank_option_model printer

end bambu_farm_server.printers
