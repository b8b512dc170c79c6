-- The names that a user gives to printers (`printer_metadata.cpp`). A rename changes
-- the names under a lock and writes them to a file behind it, so two renames may
-- write in the other order.
import BambuFarm.JsonSearch
import BambuFarm.LocalState

open json search tables runs
open bambu_farm_client.print_job
open bambu_farm_client.local_state (tab newline)

namespace bambu_farm_client.printer_metadata

/-! ## Names in a JSON text -/

/-- The loop that looks for the quote which ends a value. -/
def scan_value : Text → Bool → Nat → Option Nat
  | [], _, _ => none
  | c :: rest, escaped, value_end =>
    if !escaped && c = quote then some value_end
    else scan_value rest (!escaped && c = backslash) (value_end + 1)

def find_json_string_value_range (json key : Text) : Option (Nat × Nat) :=
  let needle := ascii "\"" ++ key ++ ascii "\": \""
  match find json needle 0 with
  | none => none
  | some key_pos =>
    let value_start := key_pos + needle.length
    (scan_value (json.drop value_start) false value_start).map fun value_end =>
      (value_start, value_end)

/-- The text of a value, as it stands between its quotes. -/
def json_string_field (json key : Text) : Text :=
  match find_json_string_value_range json key with
  | none => []
  | some (value_start, value_end) => (json.drop value_start).take (value_end - value_start)

abbrev Overrides := Text → Option Text

def apply_name_override (overrides : Overrides) (json : Text) : Text :=
  let dev_id := json_string_field json (ascii "dev_id")
  if dev_id = [] then json
  else match overrides dev_id with
    | none => json
    | some override_name =>
      if override_name = [] then json
      else match find_json_string_value_range json (ascii "dev_name") with
        | none => json
        | some (value_start, value_end) =>
          json.take value_start ++ json_escape override_name ++ json.drop value_end

/-! ## The file -/

/-- The entries come in the order of the hash map. -/
def persist_printer_name_overrides (overrides : List (Text × Text)) : Text :=
  overrides.flatMap fun e =>
    if e.1 ≠ [] && e.2 ≠ [] then e.1 ++ [tab] ++ e.2 ++ [newline] else []

/-- The name of a line, with its device. -/
def parse_line (line : Text) : Option (Text × Text) :=
  match find line [tab] 0 with
  | none => none
  | some tab_pos =>
    let dev_id := line.take tab_pos
    let name := line.drop (tab_pos + 1)
    if dev_id ≠ [] && name ≠ [] then some (dev_id, name) else none

/-- No file is read as no names. -/
def load_printer_name_overrides : Option Text → Overrides
  | none => fun _ => none
  | some content => (lines newline content).foldl (enter parse_line) fun _ => none

/-! ## What is seen of the names -/

/-- The name that a device is shown with. -/
def shown (overrides : Overrides) (dev_id : Text) : Option Text :=
  if dev_id = [] then none else (overrides dev_id).filter (· ≠ [])

/-- The names that are shown are all that counts. -/
theorem apply_eq (overrides : Overrides) (json : Text) :
    apply_name_override overrides json =
      match shown overrides (json_string_field json (ascii "dev_id")) with
      | none => json
      | some override_name =>
        match find_json_string_value_range json (ascii "dev_name") with
        | none => json
        | some (value_start, value_end) =>
          json.take value_start ++ json_escape override_name ++ json.drop value_end := by
  unfold apply_name_override shown
  dsimp only
  split_ifs with hdev
  · rfl
  · cases hname : overrides (json_string_field json (ascii "dev_id")) with
    | none => rfl
    | some name =>
      by_cases hempty : name = []
      · simp [hempty, Option.filter]
      · simp [hempty, Option.filter]

theorem shown_shown (overrides : Overrides) : shown (shown overrides) = shown overrides := by
  funext dev_id
  unfold shown
  split_ifs with h
  · rfl
  · cases overrides dev_id with
    | none => rfl
    | some name => by_cases hname : name = [] <;> simp [hname]

/-- A device that some printer can announce. -/
def Announced (dev_id : Text) : Prop :=
  dev_id ≠ [] ∧ ∃ json, json_string_field json (ascii "dev_id") = dev_id

/-- Every device that can be announced has the same name in both. -/
def SameNames (m m' : Overrides) : Prop := ∀ dev_id, Announced dev_id → shown m dev_id = shown m' dev_id

theorem apply_congr {m m' : Overrides} (h : SameNames m m') (json : Text) :
    apply_name_override m json = apply_name_override m' json := by
  rw [apply_eq, apply_eq]
  by_cases hempty : json_string_field json (ascii "dev_id") = []
  · simp [hempty, shown]
  · rw [h _ ⟨hempty, json, rfl⟩]

/-- The loop stops behind the same text wherever it stands. -/
theorem scan_value_split {t : Text} {escaped : Bool} {pos value_end : Nat}
    (h : scan_value t escaped pos = some value_end) :
    ∃ value rest, t = value ++ quote :: rest ∧ value_end = pos + value.length ∧
      ∀ rest' pos', scan_value (value ++ quote :: rest') escaped pos' =
        some (pos' + value.length) := by
  induction t generalizing escaped pos with
  | nil => cases h
  | cons c t ih =>
    unfold scan_value at h
    split at h
    · rename_i hc
      cases h
      simp only [Bool.and_eq_true, Bool.not_eq_true', decide_eq_true_eq] at hc
      obtain ⟨rfl, rfl⟩ := hc
      exact ⟨[], t, rfl, rfl, fun rest' pos' => by simp [scan_value]⟩
    · rename_i hc
      obtain ⟨value, rest, rfl, rfl, hscan⟩ := ih h
      refine ⟨c :: value, rest, rfl, by rw [List.length_cons]; omega, fun rest' pos' => ?_⟩
      rw [List.cons_append, scan_value, if_neg hc, hscan, List.length_cons]
      congr 1
      omega

/-- The text that a key is looked for by. -/
def needle (key : Text) : Text := ascii "\"" ++ key ++ ascii "\": \""

theorem needle_eq (key : Text) : needle key = keyPattern key ++ [0x20, quote] := by
  have hmarks : ascii "\"" = [quote] ∧ ascii "\": \"" = [quote, colon, 0x20, quote] := by decide
  simp only [needle, keyPattern, hmarks, List.append_assoc, List.cons_append, List.nil_append]

/-- The loop passes over the text and stops at the quote behind it. -/
def Scanned (value : Text) : Prop :=
  ∀ rest pos, scan_value (value ++ quote :: rest) false pos = some (pos + value.length)

theorem range_of_find {front key value rest : Text} (hvalue : Scanned value)
    (h : find (front ++ (needle key ++ (value ++ quote :: rest))) (needle key) 0 =
      some front.length) :
    find_json_string_value_range (front ++ (needle key ++ (value ++ quote :: rest))) key =
      some (front.length + (needle key).length,
        front.length + (needle key).length + value.length) := by
  unfold find_json_string_value_range
  unfold needle at h ⊢
  simp only [h]
  rw [← List.drop_drop, List.drop_left, List.drop_left, hvalue]
  rfl

theorem field_of_find {front key value rest : Text} (hvalue : Scanned value)
    (h : find (front ++ (needle key ++ (value ++ quote :: rest))) (needle key) 0 =
      some front.length) :
    json_string_field (front ++ (needle key ++ (value ++ quote :: rest))) key = value := by
  unfold json_string_field
  simp only [range_of_find hvalue h]
  rw [← List.drop_drop, List.drop_left, List.drop_left, Nat.add_sub_cancel_left, List.take_left]

/-- A text whose quotes are escaped is passed over. -/
theorem scanned_of_escaped {value : Text} (h : Escaped value) : Scanned value := by
  intro rest pos
  induction h generalizing pos with
  | nil => simp [scan_value]
  | plain hq hb _ ih =>
    simp only [List.cons_append, scan_value, Bool.not_false, Bool.true_and, hq, hb, decide_false,
      Bool.false_eq_true, if_false, ih, List.length_cons]
    congr 1
    omega
  | escape _ ih =>
    simp only [List.cons_append, scan_value, Bool.not_false, Bool.true_and, Bool.not_true,
      Bool.false_and, decide_true, Bool.false_eq_true, if_false, ih, List.length_cons]
    simp
    omega

/-- A text of a printer with a name that is empty. -/
def announcement (dev_id : Text) : Text :=
  ascii "\x7b\"dev_name\": \"\", \"dev_id\": \"" ++ dev_id ++ ascii "\"\x7d"

theorem find_announcement (pat : Text) {i : Nat}
    (h : find (ascii "\x7b\"dev_name\": \"\", \"dev_id\": \"") pat 0 = some i)
    (hi : i + pat.length ≤ 28) (dev_id : Text) : find (announcement dev_id) pat 0 = some i := by
  refine find_congr ?_ hi h
  rw [announcement, List.append_assoc, List.take_append_of_le_length (by decide)]

/-- The id that is read from a text can stand in any text. -/
theorem Announced.scanned {dev_id : Text} (h : Announced dev_id) : Scanned dev_id := by
  obtain ⟨hne, json, hjson⟩ := h
  unfold json_string_field at hjson
  split at hjson
  · exact absurd hjson.symm hne
  · rename_i value_start value_end hrange
    unfold find_json_string_value_range at hrange
    dsimp only at hrange
    split at hrange
    · cases hrange
    · obtain ⟨e, he, heq⟩ := Option.map_eq_some_iff.mp hrange
      cases heq
      obtain ⟨value, rest', hsplit, rfl, hscan⟩ := scan_value_split he
      rw [hsplit, Nat.add_sub_cancel_left, List.take_left] at hjson
      rw [← hjson]
      exact hscan

theorem field_announcement {dev_id : Text} (h : Announced dev_id) :
    json_string_field (announcement dev_id) (ascii "dev_id") = dev_id := by
  have hfind := find_announcement (needle (ascii "dev_id")) (i := 17) (by decide) (by decide) dev_id
  have hsplit : announcement dev_id = ascii "\x7b\"dev_name\": \"\", " ++
      (needle (ascii "dev_id") ++ (dev_id ++ quote :: ascii "\x7d")) := by
    rw [announcement, List.append_assoc]
    rfl
  rw [hsplit] at hfind ⊢
  exact field_of_find h.scanned hfind

theorem range_announcement (dev_id : Text) :
    find_json_string_value_range (announcement dev_id) (ascii "dev_name") = some (14, 14) := by
  have hfind := find_announcement (needle (ascii "dev_name")) (i := 1) (by decide) (by decide)
    dev_id
  have hsplit : announcement dev_id = ascii "\x7b" ++ (needle (ascii "dev_name") ++
      ([] ++ quote :: (ascii ", \"dev_id\": \"" ++ dev_id ++ ascii "\"\x7d"))) := by
    rw [announcement]
    rfl
  rw [hsplit] at hfind ⊢
  exact range_of_find (scanned_of_escaped .nil) hfind

/-- What an escaped text starts with tells its first byte. -/
theorem escapeByte_append {c d : UInt8} {a b : Text} (h : escapeByte c ++ a = escapeByte d ++ b) :
    c = d ∧ a = b := by
  unfold escapeByte at h
  split_ifs at h <;> simp_all

theorem escapeByte_ne_nil (c : UInt8) : escapeByte c ≠ [] := by
  unfold escapeByte
  split_ifs <;> simp

theorem json_escape_injective : Function.Injective json_escape := by
  intro a b h
  induction a generalizing b with
  | nil =>
    cases b with
    | nil => rfl
    | cons d b =>
      rw [json_escape, json_escape, List.flatMap_nil, List.flatMap_cons] at h
      exact absurd (List.append_eq_nil_iff.mp h.symm).1 (escapeByte_ne_nil d)
  | cons c a ih =>
    cases b with
    | nil =>
      rw [json_escape, json_escape, List.flatMap_nil, List.flatMap_cons] at h
      exact absurd (List.append_eq_nil_iff.mp h).1 (escapeByte_ne_nil c)
    | cons d b =>
      rw [json_escape, json_escape, List.flatMap_cons, List.flatMap_cons] at h
      obtain ⟨rfl, hrest⟩ := escapeByte_append h
      rw [ih hrest]

/-- The announcement with a name put into it. -/
theorem apply_announcement (m : Overrides) {dev_id : Text} (h : Announced dev_id) :
    apply_name_override m (announcement dev_id) =
      (announcement dev_id).take 14 ++ json_escape ((shown m dev_id).getD []) ++
        (announcement dev_id).drop 14 := by
  rw [apply_eq, field_announcement h, range_announcement]
  cases shown m dev_id with
  | none => simp [json_escape]
  | some name => rfl

theorem shown_ne_nil (m : Overrides) (dev_id : Text) : shown m dev_id ≠ some [] := by
  unfold shown
  split_ifs
  · simp
  · intro h
    have := (Option.filter_eq_some_iff.mp h).2
    simp at this

/-- Two stores that show the same texts have the same names. -/
theorem sameNames_of_apply {m m' : Overrides}
    (h : ∀ json, apply_name_override m json = apply_name_override m' json) : SameNames m m' := by
  intro dev_id hdev
  have hjson := h (announcement dev_id)
  rw [apply_announcement m hdev, apply_announcement m' hdev] at hjson
  have hname := json_escape_injective
    (List.append_cancel_left (List.append_cancel_right hjson))
  have hne := shown_ne_nil m dev_id
  have hne' := shown_ne_nil m' dev_id
  revert hname hne hne'
  cases shown m dev_id <;> cases shown m' dev_id <;> simp_all

/-! ## Reading what was written -/

/-- The file can hold the name of the device. -/
def Lasting (dev_id name : Text) : Prop := tab ∉ dev_id ∧ newline ∉ dev_id ∧ newline ∉ name

instance (dev_id name : Text) : Decidable (Lasting dev_id name) :=
  inferInstanceAs (Decidable (_ ∧ _ ∧ _))

/-- The names that are shown can stand in the file. -/
def AllLasting (m : Overrides) : Prop :=
  ∀ dev_id name, shown m dev_id = some name → Lasting dev_id name

theorem parse_line_split {line dev_id name : Text} (h : parse_line line = some (dev_id, name)) :
    line = dev_id ++ tab :: name ∧ tab ∉ dev_id := by
  unfold parse_line at h
  split at h
  · cases h
  · rename_i tab_pos hfind
    dsimp only at h
    split_ifs at h
    cases h
    obtain ⟨hcut, hmem⟩ := find_between hfind
    exact ⟨hcut, hmem⟩

theorem parse_line_append {dev_id name : Text} (htab : tab ∉ dev_id) (hdev : dev_id ≠ [])
    (hname : name ≠ []) : parse_line (dev_id ++ tab :: name) = some (dev_id, name) := by
  have hfind : find (dev_id ++ ([tab] ++ name)) [tab] 0 = some dev_id.length :=
    find_append htab rfl
  rw [List.singleton_append] at hfind
  unfold parse_line
  simp [hfind, hdev, hname]

theorem load_some (content : Text) : load_printer_name_overrides (some content) =
    collect ((lines newline content).filterMap parse_line) :=
  foldl_enter parse_line _

theorem shown_eq_some {m : Overrides} {dev_id name : Text} :
    shown m dev_id = some name ↔ dev_id ≠ [] ∧ m dev_id = some name ∧ name ≠ [] := by
  unfold shown
  split_ifs with h
  · simp [h]
  · rw [Option.filter_eq_some_iff]
    simp [h]

theorem load_lasting (file : Option Text) : AllLasting (load_printer_name_overrides file) := by
  intro dev_id name h
  obtain ⟨-, h, -⟩ := shown_eq_some.mp h
  cases file with
  | none => cases h
  | some content =>
    rw [load_some] at h
    obtain ⟨line, hline, hparse⟩ := List.mem_filterMap.mp (mem_of_collect h)
    obtain ⟨rfl, htab⟩ := parse_line_split hparse
    have hnewline := notMem_of_mem_lines hline
    rw [List.mem_append, List.mem_cons, not_or, not_or] at hnewline
    exact ⟨htab, hnewline.1, hnewline.2.2⟩

/-- The names that are shown are read again. -/
theorem load_persist {m : Overrides} (h : AllLasting m) {order : List (Text × Text)}
    (horder : Lists m order) :
    load_printer_name_overrides (some (persist_printer_name_overrides order)) = shown m := by
  have hshown : Lists (shown m) (order.filter fun e => e.1 ≠ [] && e.2 ≠ []) := by
    convert horder.filter fun dev_id name => dev_id ≠ [] && name ≠ [] using 1
    funext dev_id
    unfold shown
    split_ifs with hdev
    · simp [hdev]
    · simp [hdev]
  have htext : persist_printer_name_overrides order =
      (order.filter fun e => e.1 ≠ [] && e.2 ≠ []).flatMap fun e =>
        (e.1 ++ tab :: e.2) ++ [newline] := by
    clear horder hshown
    induction order with
    | nil => rfl
    | cons e order ih =>
      unfold persist_printer_name_overrides at ih ⊢
      rw [List.flatMap_cons, ih, List.filter_cons]
      split
      · simp
      · rfl
  rw [load_some, htext]
  refine collect_table parse_line hshown (fun e he => ?_) (fun e he => ?_)
  · obtain ⟨-, hdev, hname⟩ := h e.1 e.2 ((hshown.mem e.1 e.2).mp he)
    rw [List.mem_append, List.mem_cons]
    rintro (hm | hm | hm)
    · exact hdev hm
    · exact absurd hm (by decide)
    · exact hname hm
  · have hlisted := (hshown.mem e.1 e.2).mp he
    obtain ⟨hdev, -, hname⟩ := shown_eq_some.mp hlisted
    exact parse_line_append (h e.1 e.2 hlisted).1 hdev hname

/-! ## Renames -/

/-- The names in memory, the snapshots of the calls that have not written yet, and the
file. -/
structure PrinterMetadataStore where
  overrides : Overrides
  pending : Nat → Option Overrides
  file : Option Text

/-- The sections of the calls of `set_name_override`. -/
inductive Event
  /-- The names change under the lock, and the call takes its snapshot. -/
  | set (call : Nat) (dev_id dev_name : Text)
  /-- The call writes its snapshot in some order, and returns. -/
  | write (call : Nat) (order : List (Text × Text))

def set_name (overrides : Overrides) (dev_id dev_name : Text) : Overrides :=
  Function.update overrides dev_id (if dev_name = [] then none else some dev_name)

def stepEvent (s : PrinterMetadataStore) : Event → PrinterMetadataStore
  | .set call dev_id dev_name =>
    let overrides := set_name s.overrides dev_id dev_name
    { s with overrides := overrides, pending := Function.update s.pending call (some overrides) }
  | .write call order =>
    { s with
      pending := Function.update s.pending call none
      file := some (persist_printer_name_overrides order) }

/-- A store that has loaded some file, over a file that may be another one. -/
def opened (saved file : Option Text) : PrinterMetadataStore :=
  { overrides := load_printer_name_overrides saved, pending := fun _ => none, file := file }

/-- All calls have returned. -/
def Idle (s : PrinterMetadataStore) : Prop := ∀ call, s.pending call = none

/-- The name, if there is one, can stand in the file. -/
def Event.Clean : Event → Prop
  | .set _ dev_id dev_name => dev_name = [] ∨ dev_id = [] ∨ Lasting dev_id dev_name
  | .write .. => True

section run

variable (saved file : Option Text)

def storeAfter (es : List Event) : PrinterMetadataStore := after stepEvent (opened saved file) es

/-- A call takes its snapshot, and later writes it. -/
def Possible (es : List Event) : Event → Prop
  | .set call _ _ => (storeAfter saved file es).pending call = none
  | .write call order => ∃ snapshot, (storeAfter saved file es).pending call = some snapshot ∧
      Lists snapshot order

/-- When all calls have returned, a fresh store shows each printer as the store does. -/
def Durable (es : List Event) : Prop :=
  es ≠ [] → Idle (storeAfter saved file es) → ∀ json,
    apply_name_override (load_printer_name_overrides (storeAfter saved file es).file) json =
      apply_name_override (storeAfter saved file es).overrides json

/-- The call that returns last writes the names as they are. -/
def Timely (es : List Event) : Event → Prop
  | .set .. => True
  | .write call _ => (∀ c, c ≠ call → (storeAfter saved file es).pending c = none) →
      ∀ snapshot, (storeAfter saved file es).pending call = some snapshot →
        SameNames snapshot (storeAfter saved file es).overrides

end run

/-! ## Durable names -/

theorem lasting_set_name {m : Overrides} {dev_id dev_name : Text} (h : AllLasting m)
    (hclean : dev_name = [] ∨ dev_id = [] ∨ Lasting dev_id dev_name) :
    AllLasting (set_name m dev_id dev_name) := by
  intro d n hshown
  obtain ⟨hd, hn, hne⟩ := shown_eq_some.mp hshown
  unfold set_name at hn
  by_cases hdev : d = dev_id
  · subst hdev
    rw [Function.update_self] at hn
    split_ifs at hn with hname
    cases hn
    exact (hclean.resolve_left hname).resolve_left hd
  · rw [Function.update_of_ne hdev] at hn
    exact h d n (shown_eq_some.mpr ⟨hd, hn, hne⟩)

section run

variable {saved file : Option Text} {es : List Event} {e : Event}

theorem storeAfter_snoc :
    storeAfter saved file (es ++ [e]) = stepEvent (storeAfter saved file es) e :=
  after_snoc _ _ _ _

/-- Clean renames leave names that last in the store and in every snapshot. -/
theorem lasting_of_clean (h : Steps (fun _ e => e.Clean) es) :
    AllLasting (storeAfter saved file es).overrides ∧
      ∀ call snapshot, (storeAfter saved file es).pending call = some snapshot →
        AllLasting snapshot := by
  induction es using List.reverseRecOn with
  | nil => exact ⟨load_lasting _, fun call snapshot h => by cases h⟩
  | append_singleton es e ih =>
    rw [steps_snoc] at h
    obtain ⟨hnames, hpending⟩ := ih h.1
    rw [storeAfter_snoc]
    cases e with
    | set call dev_id dev_name =>
      have hset := lasting_set_name hnames h.2
      refine ⟨hset, fun c snapshot hc => ?_⟩
      by_cases heq : c = call
      · subst heq
        simp only [stepEvent, Function.update_self, Option.some.injEq] at hc
        rw [← hc]
        exact hset
      · simp only [stepEvent, Function.update_of_ne heq] at hc
        exact hpending c snapshot hc
    | write call order =>
      refine ⟨hnames, fun c snapshot hc => ?_⟩
      by_cases heq : c = call
      · subst heq
        simp only [stepEvent, Function.update_self] at hc
        cases hc
      · simp only [stepEvent, Function.update_of_ne heq] at hc
        exact hpending c snapshot hc

theorem durable_snoc (hpossible : Possible saved file es e)
    (hclean : Steps (fun _ e => e.Clean) es) :
    Durable saved file (es ++ [e]) ↔ Timely saved file es e := by
  unfold Durable
  rw [storeAfter_snoc]
  cases e with
  | set call dev_id dev_name =>
    refine iff_of_true (fun _ hidle => ?_) trivial
    have hcall := hidle call
    simp [stepEvent] at hcall
  | write call order =>
    obtain ⟨snapshot, hsnapshot, horder⟩ := hpossible
    have hidle : Idle (stepEvent (storeAfter saved file es) (.write call order)) ↔
        ∀ c, c ≠ call → (storeAfter saved file es).pending c = none := by
      refine forall_congr' fun c => ?_
      by_cases hc : c = call
      · simp [stepEvent, hc]
      · simp [stepEvent, hc]
    have hload : ∀ json, apply_name_override (load_printer_name_overrides
        (some (persist_printer_name_overrides order))) json =
          apply_name_override snapshot json := by
      rw [load_persist ((lasting_of_clean hclean).2 call snapshot hsnapshot) horder]
      exact apply_congr fun dev_id _ => by rw [shown_shown]
    rw [hidle]
    constructor
    · intro h hothers snapshot' hsnapshot'
      obtain rfl : snapshot = snapshot' := Option.some.inj (hsnapshot.symm.trans hsnapshot')
      refine sameNames_of_apply fun json => ?_
      rw [← hload json]
      exact h (by simp) hothers json
    · intro h _ hothers json
      exact (hload json).trans (apply_congr (h hothers snapshot hsnapshot) json)

end run

theorem renames_are_durable_iff (saved file : Option Text) (es : List Event)
    (h : Steps (Possible saved file) es) (hclean : Steps (fun _ e => e.Clean) es) :
    Always (Durable saved file) es ↔ Steps (Timely saved file) es := by
  refine always_iff_steps (fun hne => absurd rfl hne) (fun es e hes he _ => ?_) (h.and hclean)
  exact durable_snoc he.1 (hes.mono fun _ _ hstep => hstep.2)

/-- A printer gets a name. -/
def oneRename : List Event :=
  [.set 0 (ascii "A1") (ascii "x"), .write 0 [(ascii "A1", ascii "x")]]

theorem one_rename_is_durable : Always (Durable none none) oneRename := by
  have hpossible : Steps (Possible none none) oneRename := by
    refine (steps_snoc _ [_] _).mpr ⟨(steps_snoc _ [] _).mpr ⟨steps_nil _, rfl⟩, _, rfl, ?_⟩
    exact Lists.nil.insert _ _
  have hclean : Steps (fun _ e => Event.Clean e) oneRename := by
    refine (steps_snoc _ [_] _).mpr ⟨(steps_snoc _ [] _).mpr ⟨steps_nil _, ?_⟩, trivial⟩
    exact .inr (.inr (by decide))
  rw [renames_are_durable_iff none none _ hpossible hclean]
  refine (steps_snoc _ [_] _).mpr ⟨(steps_snoc _ [] _).mpr ⟨steps_nil _, trivial⟩, ?_⟩
  intro _ snapshot hsnapshot dev_id _
  rw [← Option.some.inj hsnapshot]
  rfl

/-- A name is set and taken back, and the call that set it writes last. -/
def staleRun : List Event :=
  [.set 0 (ascii "A1") (ascii "x"), .set 1 (ascii "A1") [], .write 1 [],
    .write 0 [(ascii "A1", ascii "x")]]

/-- A name with a newline in it. -/
def newlineRun : List Event :=
  [.set 0 (ascii "A1") (ascii "x\ny"), .write 0 [(ascii "A1", ascii "x\ny")]]

theorem stale_snapshot_and_newline_lose_names :
    (Steps (Possible none none) staleRun ∧ ¬ Always (Durable none none) staleRun) ∧
    (Steps (Possible none none) newlineRun ∧ ¬ Always (Durable none none) newlineRun) := by
  refine ⟨⟨?_, fun h => ?_⟩, ?_, fun h => ?_⟩
  · refine (steps_snoc _ [_, _, _] _).mpr ⟨(steps_snoc _ [_, _] _).mpr ⟨(steps_snoc _ [_] _).mpr
      ⟨(steps_snoc _ [] _).mpr ⟨steps_nil _, rfl⟩, rfl⟩, _, rfl, ?_⟩, _, rfl, ?_⟩
    · exact (Lists.nil.insert (ascii "A1") (ascii "x")).erase (ascii "A1")
    · exact Lists.nil.insert _ _
  · have hidle : Idle (storeAfter none none staleRun) := by
      intro call
      by_cases h0 : call = 0
      · rw [h0]
        rfl
      · by_cases h1 : call = 1
        · rw [h1]
          rfl
        · simp [storeAfter, staleRun, stepEvent, opened, h0, h1]
    exact absurd (h.last (by simp [staleRun]) hidle (announcement (ascii "A1"))) (by decide +kernel)
  · refine (steps_snoc _ [_] _).mpr ⟨(steps_snoc _ [] _).mpr ⟨steps_nil _, rfl⟩, _, rfl, ?_⟩
    exact Lists.nil.insert _ _
  · have hidle : Idle (storeAfter none none newlineRun) := by
      intro call
      simp [storeAfter, newlineRun, stepEvent, opened]
    exact absurd (h.last (by simp [newlineRun]) hidle (announcement (ascii "A1")))
      (by decide +kernel)

end bambu_farm_client.printer_metadata
