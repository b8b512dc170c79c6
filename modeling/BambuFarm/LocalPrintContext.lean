-- The status messages of a printer, as the plugin rewrites them on their way to
-- the slicer: members are put into the `print` object by a search for texts and
-- braces, without reading the JSON (`local_print_context.cpp`).
import BambuFarm.JsonGrowth
import BambuFarm.JsonText
import BambuFarm.PrintJob
import BambuFarm.Search

open json search
open bambu_farm_client.print_job

namespace bambu_farm_client.local_print_context

/-! ## The rewriting -/

structure LocalPrintContext where
  project_id : Text
  profile_id : Text
  subtask_id : Text
  task_id : Text
  active : Bool

abbrev Contexts := Text → Option LocalPrintContext

/-- The text of the `file` member. -/
def fileText : Text := ascii
  "\"file\":\x7b\"local\":\"local\",\"remote\":\"none\",\"model_download\":\"disabled\"\x7d,"

/-- The text of the `ipcam` member. -/
def ipcamText : Text := ascii
  "\"ipcam\":\x7b\"file\":\x7b\"local\":\"local\",\"remote\":\"none\",\"model_download\":\"disabled\"\x7d\x7d,"

def inject_file_capability (input : Text) : Text :=
  match find input (ascii "\"print\"") 0 with
  | none => input
  | some print_key_pos =>
    match find input [lbrace] print_key_pos with
    | none => input
    | some print_object_start =>
      match find input (ascii "\"ipcam\"") print_object_start with
      | none => insertAt input (print_object_start + 1) ipcamText
      | some ipcam_key_pos =>
        match find input [lbrace] ipcam_key_pos with
        | none => input
        | some ipcam_object_start =>
          match find input [rbrace] ipcam_object_start with
          | none => input
          | some ipcam_object_end =>
            let ipcam_body := (input.drop ipcam_object_start).take
              (ipcam_object_end - ipcam_object_start)
            if find ipcam_body (ascii "\"file\"") 0 = none then
              insertAt input (ipcam_object_start + 1) fileText
            else input

/-- The ids of a context, by key. -/
def ids (context : LocalPrintContext) : List (Text × Text) :=
  [(ascii "project_id", context.project_id), (ascii "profile_id", context.profile_id),
    (ascii "subtask_id", context.subtask_id), (ascii "task_id", context.task_id)]

/-- The text of the member for an id. -/
def idText (id : Text × Text) : Text :=
  ascii "\"" ++ id.1 ++ ascii "\":\"" ++ json_escape id.2 ++ ascii "\","

/-- The ids that are not found behind `print_key_pos`. -/
def notFound (context : LocalPrintContext) (t : Text) (print_key_pos : Nat) :
    List (Text × Text) :=
  (ids context).filter fun id => find t (quote :: id.1 ++ [quote]) print_key_pos = none

def rewrite_status_message (contexts : Contexts) (device_id message : Text) : Text :=
  let capability_message := inject_file_capability message
  match contexts device_id with
  | none => capability_message
  | some context =>
    if !context.active then capability_message
    else match find capability_message (ascii "\"print\"") 0 with
      | none => capability_message
      | some print_key_pos =>
        match find capability_message [lbrace] print_key_pos with
        | none => capability_message
        | some object_start =>
          let lacking := notFound context capability_message print_key_pos
          if lacking = [] then capability_message
          else
            let injected := lacking.flatMap idText
            if injected = [] then message
            else insertAt capability_message (object_start + 1) injected

/-! ## The purpose of the rewriting -/

/-- The context of the device, when it is active. -/
def activeContext (contexts : Contexts) (device_id : Text) : Option LocalPrintContext :=
  (contexts device_id).filter (·.active)

/-- The `file` member that the slicer looks for. -/
def fileMember : Member :=
  (ascii "file", .obj [(ascii "local", .str (ascii "local")),
    (ascii "remote", .str (ascii "none")), (ascii "model_download", .str (ascii "disabled"))])

def ipcamMember : Member := (ascii "ipcam", .obj [fileMember])

def idMember (id : Text × Text) : Member := (id.1, .str id.2)

/-- The members of the `print` object of a message. -/
def printObject : Value → Option (List Member)
  | .obj ms =>
    match ms.lookup (ascii "print") with
    | some (.obj ps) => some ps
    | _ => none
  | _ => none

/-- The ids of the context that a `print` object lacks. -/
def lackingIds (context : Option LocalPrintContext) (ps : List Member) : List (Text × Text) :=
  (context.elim [] ids).filter fun id => id.1 ∉ keys ps

/-- What there is to add for the `file` capability. -/
inductive Capability
  | ipcam
  | file
  | nothing
  deriving DecidableEq

/-- What a `print` object lacks of the `file` capability. An `ipcam` member that is no object
cannot have a `file` member. -/
def lackingCapability (ps : List Member) : Capability :=
  match ps.lookup (ascii "ipcam") with
  | none => .ipcam
  | some (.obj is) => if ascii "file" ∈ keys is then .nothing else .file
  | some _ => .nothing

/-- A `print` object gets the `file` capability when it lacks it. -/
inductive GainsCapability : List Member → List Member → Prop
  | ipcam {ps qs : List Member} (h : Gains ps qs [ipcamMember]) : GainsCapability ps qs
  | file {before is is' after : List Member} (hfirst : ascii "ipcam" ∉ keys before)
      (h : Gains is is' [fileMember]) :
      GainsCapability (before ++ (ascii "ipcam", .obj is) :: after)
        (before ++ (ascii "ipcam", .obj is') :: after)
  | nothing {ps : List Member} (h : lackingCapability ps = .nothing) : GainsCapability ps ps

/-- A `print` object gets what it lacks, and nothing else. -/
def GainsLacking (context : Option LocalPrintContext) (ps ps' : List Member) : Prop :=
  ∃ qs, GainsCapability ps qs ∧ Gains qs ps' ((lackingIds context ps).map idMember)

/-- A message gets what its `print` object lacks, and nothing else; a message without a `print`
object stays as it is. -/
inductive Completes (context : Option LocalPrintContext) : Value → Value → Prop
  | print {before ps ps' after : List Member} (hfirst : ascii "print" ∉ keys before)
      (h : GainsLacking context ps ps') :
      Completes context (.obj (before ++ (ascii "print", .obj ps) :: after))
        (.obj (before ++ (ascii "print", .obj ps') :: after))
  | other {v : Value} (h : printObject v = none) : Completes context v v

/-! ## Where the rewriting lands -/

/-- The brace that is taken for the one of the `print` object. -/
def printBrace (m : Text) : Option Nat := (find m (ascii "\"print\"") 0).bind (find m [lbrace])

/-- The brace that is taken for the one of the `ipcam` object. -/
def ipcamBrace (m : Text) : Option Nat :=
  (printBrace m).bind fun b => (find m (ascii "\"ipcam\"") b).bind (find m [lbrace])

/-- The ids that the search misses. -/
def missedIds (context : Option LocalPrintContext) (m : Text) : List (Text × Text) :=
  match context, find m (ascii "\"print\"") 0 with
  | some context, some k => if (find m [lbrace] k).isSome then notFound context m k else []
  | _, _ => []

/-- What the search misses of the `file` capability. -/
def missedCapability (m : Text) : Capability :=
  match printBrace m with
  | none => .nothing
  | some b =>
    match find m (ascii "\"ipcam\"") b with
    | none => .ipcam
    | some _ =>
      match ipcamBrace m with
      | none => .nothing
      | some j =>
        match find m [rbrace] j with
        | none => .nothing
        | some e =>
          if find ((m.drop j).take (e - j)) (ascii "\"file\"") 0 = none then .file else .nothing

/-- The brace opens the `print` object of the message, which is not empty. -/
def OpensPrint (m : Text) (b : Nat) : Prop :=
  KeyNext (m.drop (b + 1)) ∧ ∃ before, ascii "print" ∉ keys before ∧
    run start (m.take (b + 1)) = some ⟨[.obj [] [], .obj before (ascii "print")], .objStart⟩

/-- The brace opens the `ipcam` object of the `print` object, which is not empty. -/
def OpensIpcam (m : Text) (j : Nat) : Prop :=
  KeyNext (m.drop (j + 1)) ∧ ∃ inner before, ascii "ipcam" ∉ keys inner ∧
    ascii "print" ∉ keys before ∧ run start (m.take (j + 1)) =
      some ⟨[.obj [] [], .obj inner (ascii "ipcam"), .obj before (ascii "print")], .objStart⟩

/-- The search misses what the `print` object lacks, and the braces that text is put behind are
those of the objects that it is meant for. -/
structure Lands (context : Option LocalPrintContext) (m : Text) (v : Value) : Prop where
  ids : missedIds context m = (printObject v).elim [] (lackingIds context)
  capability : missedCapability m = (printObject v).elim .nothing lackingCapability
  escapable : ∀ id ∈ missedIds context m, id.2.all isEscapable = true
  print : missedIds context m ≠ [] ∨ missedCapability m = .ipcam →
    ∃ b, printBrace m = some b ∧ OpensPrint m b
  ipcam : missedCapability m = .file → ∃ j, ipcamBrace m = some j ∧ OpensIpcam m j

/-! ## The texts that are put in -/

/-- The keys of the ids. -/
def idKeys : List Text :=
  [ascii "project_id", ascii "profile_id", ascii "subtask_id", ascii "task_id"]

theorem map_ids (c : LocalPrintContext) : (ids c).map Prod.fst = idKeys := rfl

/-- The text of an id as a value. -/
def idEntry (id : Text × Text) : Text × Text := (id.1, quote :: json_escape id.2 ++ [quote])

theorem idText_eq (ids : List (Text × Text)) :
    ids.flatMap idText = commaText (ids.map idEntry) := by
  simp only [commaText, List.flatMap_map]
  congr 1
  funext id
  simp only [idText, memberText, idEntry, ascii, List.append_assoc, List.cons_append,
    List.nil_append]
  rfl

/-- The object of the `file` member. -/
def fileEntry : Text × Text :=
  (ascii "file", objectText [(ascii "local", quote :: ascii "local" ++ [quote]),
    (ascii "remote", quote :: ascii "none" ++ [quote]),
    (ascii "model_download", quote :: ascii "disabled" ++ [quote])])

def ipcamEntry : Text × Text := (ascii "ipcam", objectText [fileEntry])

theorem fileText_eq : fileText = commaText [fileEntry] := by
  decide +kernel

theorem ipcamText_eq : ipcamText = commaText [ipcamEntry] := by
  decide +kernel

theorem ids_plain : ∀ k ∈ idKeys, k.all isPlain = true := by
  decide

theorem reads_plain {t : Text} (h : t.all isPlain = true) :
    Reads (quote :: t ++ [quote]) (.str t) :=
  reads_string (spells_plain h)

theorem members_file : Members [fileEntry] [fileMember] :=
  .cons (by decide) (reads_objectText (.cons (by decide) (reads_plain (by decide))
    (.cons (by decide) (reads_plain (by decide)) (.cons (by decide) (reads_plain (by decide))
      .nil))) (by simp)) .nil

theorem members_ipcam : Members [ipcamEntry] [ipcamMember] :=
  .cons (by decide) (reads_objectText members_file (by simp)) .nil

theorem members_ids {ids : List (Text × Text)} (hkeys : ∀ id ∈ ids, id.1 ∈ idKeys)
    (h : ∀ id ∈ ids, id.2.all isEscapable = true) :
    Members (ids.map idEntry) (ids.map idMember) := by
  induction ids with
  | nil => exact .nil
  | cons id ids ih =>
    simp only [List.forall_mem_cons] at hkeys h
    exact .cons (ids_plain _ hkeys.1) (reads_string (spells_json_escape h.1)) (ih hkeys.2 h.2)

/-- An id with another control character makes the text unreadable. -/
theorem run_ids_none {ids : List (Text × Text)} (hkeys : ∀ id ∈ ids, id.1 ∈ idKeys)
    (h : ¬ ∀ id ∈ ids, id.2.all isEscapable = true) {mode : Mode}
    (hm : mode = .objStart ∨ mode = .key) (ms : List Member) (k' : Text) (fs : List Frame)
    (rest : Text) :
    run ⟨.obj ms k' :: fs, mode⟩ (commaText (ids.map idEntry) ++ rest) = none := by
  induction ids generalizing mode ms k' with
  | nil => exact absurd (by simp) h
  | cons id ids ih =>
    simp only [List.forall_mem_cons, not_and] at hkeys h
    rw [List.map_cons, commaText, List.flatMap_cons, List.append_assoc]
    simp only [idEntry]
    by_cases hid : id.2.all isEscapable = true
    · rw [run_comma_member (ids_plain _ hkeys.1) (reads_string (spells_json_escape hid)) hm]
      exact ih hkeys.2 (h hid) (Or.inr rfl) _ _
    · rw [memberText, List.append_assoc, List.append_assoc, run_append,
        run_key (ids_plain _ hkeys.1) hm, Option.bind_some]
      have hstart : step ⟨.obj ms id.1 :: fs, .value⟩ quote =
          some ⟨.obj ms id.1 :: fs, .str false []⟩ := by
        simp [step, isSpace, startValue]
      simp only [List.cons_append, List.append_assoc, run, hstart, Option.bind_some]
      exact run_json_escape_none (by simpa using hid) _ _ _ _

/-! ## The rewritten text -/

/-- What follows the brace of the `print` object when the capability has been put in. -/
inductive Tail (m : Text) (b : Nat) : Text → Prop
  | nothing (h : missedCapability m = .nothing) : Tail m b (m.drop (b + 1))
  | ipcam (h : missedCapability m = .ipcam) : Tail m b (ipcamText ++ m.drop (b + 1))
  | file {j : Nat} {q : Text} (h : missedCapability m = .file) (hj : ipcamBrace m = some j)
      (htake : m.take (j + 1) = m.take b ++ lbrace :: q ++ [lbrace])
      (hdrop : m.drop (b + 1) = q ++ lbrace :: m.drop (j + 1)) :
      Tail m b (q ++ lbrace :: (fileText ++ m.drop (j + 1)))

theorem printBrace_cut {m : Text} {b : Nat} (h : printBrace m = some b) :
    m = m.take b ++ lbrace :: m.drop (b + 1) ∧ (m.take b).length = b := by
  obtain ⟨k, -, hb⟩ := Option.bind_eq_some_iff.mp h
  exact find_cut hb

/-- What is put in is what the search misses. -/
theorem inject_file_capability_eq (m : Text) :
    inject_file_capability m =
      match missedCapability m, printBrace m, ipcamBrace m with
      | .ipcam, some b, _ => insertAt m (b + 1) ipcamText
      | .file, _, some j => insertAt m (j + 1) fileText
      | _, _, _ => m := by
  unfold inject_file_capability missedCapability ipcamBrace printBrace
  cases find m (ascii "\"print\"") 0 with
  | none => rfl
  | some k =>
    simp only [Option.bind_some]
    cases find m [lbrace] k with
    | none => rfl
    | some b =>
      simp only [Option.bind_some]
      cases find m (ascii "\"ipcam\"") b with
      | none => rfl
      | some i =>
        simp only [Option.bind_some]
        cases find m [lbrace] i with
        | none => rfl
        | some j =>
          simp only
          cases find m [rbrace] j with
          | none => rfl
          | some e =>
            simp only
            split_ifs <;> rfl

theorem ipcamBrace_of_file {m : Text} (h : missedCapability m = .file) :
    ∃ b j, printBrace m = some b ∧ ipcamBrace m = some j ∧ b < j ∧
      m = m.take j ++ lbrace :: m.drop (j + 1) ∧ (m.take j).length = j := by
  unfold missedCapability at h
  cases hb : printBrace m with
  | none => simp [hb] at h
  | some b =>
    cases hi : find m (ascii "\"ipcam\"") b with
    | none => simp [hb, hi] at h
    | some i =>
      have hbrace : ipcamBrace m = find m [lbrace] i := by
        simp only [ipcamBrace, hb, hi, Option.bind_some]
      cases hj : find m [lbrace] i with
      | none => simp only [hb, hi, hbrace, hj, reduceCtorEq] at h
      | some j =>
        have hle := (find_some hi).1
        have hlt := find_behind hi hj (by decide)
        have hpos : 0 < (ascii "\"ipcam\"").length := by decide
        exact ⟨b, j, rfl, hbrace.trans hj, by omega, find_cut hj⟩

/-- The capability is put in behind the brace of the `print` object. -/
theorem inject_file_capability_tail {m : Text} {b : Nat} (h : printBrace m = some b) :
    ∃ tail, Tail m b tail ∧ inject_file_capability m = m.take b ++ lbrace :: tail := by
  obtain ⟨hcut, hlen⟩ := printBrace_cut h
  rw [inject_file_capability_eq, h]
  cases hc : missedCapability m with
  | nothing => exact ⟨_, .nothing hc, hcut⟩
  | ipcam => exact ⟨_, .ipcam hc, insertAt_cut hcut hlen _⟩
  | file =>
    obtain ⟨b', j, hb', hj, hlt, hcut', hlen'⟩ := ipcamBrace_of_file hc
    cases h.symm.trans hb'
    have hbetween := take_between hcut hlen hlt
    have hdrop : m.drop (b + 1) =
        (m.drop (b + 1)).take (j - (b + 1)) ++ lbrace :: m.drop (j + 1) := by
      have hall := hcut.symm.trans hcut'
      rw [hbetween, List.append_assoc, List.append_cancel_left_eq, List.cons_append] at hall
      exact (List.cons.inj hall).2
    refine ⟨_, .file hc hj ?_ hdrop, ?_⟩
    · rw [take_cut hcut' hlen', hbetween]
    · simp only [hj, insertAt_cut hcut' hlen', hbetween]
      simp

theorem ids_absent : ∀ k ∈ idKeys, ¬ quote :: k ++ [quote] <:+: fileText.dropLast ∧
    ¬ quote :: k ++ [quote] <:+: ipcamText.dropLast := by
  decide +kernel

theorem punctuation_notMem : ∀ k ∈ idKeys, comma ∉ quote :: k ++ [quote] ∧
    lbrace ∉ quote :: k ++ [quote] := by
  decide

/-- The text that is put in has none of the ids. -/
theorem infix_put {k u t : Text} (hk : k ∈ idKeys) (hu : u = fileText ∨ u = ipcamText) :
    quote :: k ++ [quote] <:+: u ++ t ↔ quote :: k ++ [quote] <:+: t := by
  have hcut : ∃ w, u = w ++ [comma] ∧ ¬ quote :: k ++ [quote] <:+: w := by
    rcases hu with rfl | rfl
    · exact ⟨fileText.dropLast, by decide +kernel, (ids_absent k hk).1⟩
    · exact ⟨ipcamText.dropLast, by decide +kernel, (ids_absent k hk).2⟩
  obtain ⟨w, hw, hno⟩ := hcut
  rw [hw, List.append_assoc, List.singleton_append,
    infix_append_cons (punctuation_notMem k hk).1]
  exact or_iff_right hno

theorem infix_tail {m tail k : Text} {b : Nat} (hk : k ∈ idKeys) (h : Tail m b tail) :
    quote :: k ++ [quote] <:+: tail ↔ quote :: k ++ [quote] <:+: m.drop (b + 1) := by
  have hbrace := (punctuation_notMem k hk).2
  cases h with
  | nothing => rfl
  | ipcam => exact infix_put hk (Or.inr rfl)
  | file _ _ _ hdrop =>
    rw [hdrop, infix_append_cons hbrace, infix_append_cons hbrace, infix_put hk (Or.inl rfl)]

/-- The search for the ids is not led astray by the capability. -/
theorem notFound_tail (c : LocalPrintContext) {m tail : Text} {b k : Nat}
    (hb : printBrace m = some b) (hk : k ≤ b) (h : Tail m b tail) :
    notFound c (m.take b ++ lbrace :: tail) k = notFound c m k := by
  obtain ⟨hcut, hlen⟩ := printBrace_cut hb
  apply List.filter_congr
  intro id hid
  have hkey : id.1 ∈ idKeys := map_ids c ▸ List.mem_map_of_mem hid
  have hbrace := (punctuation_notMem id.1 hkey).2
  have hdrop : ∀ t : Text, (m.take b ++ lbrace :: t).drop k = (m.take b).drop k ++ lbrace :: t :=
    fun t => List.drop_append_of_le_length (by omega)
  have hold : m.drop k = (m.take b).drop k ++ lbrace :: m.drop (b + 1) := by
    rw [← hdrop, ← hcut]
  rw [decide_eq_decide, find_eq_none_iff, find_eq_none_iff, hdrop, hold,
    infix_append_cons hbrace, infix_append_cons hbrace, infix_tail hkey h]

theorem flatMap_idText_ne_nil {ids : List (Text × Text)} (h : ids ≠ []) :
    ids.flatMap idText ≠ [] := by
  obtain ⟨id, ids, rfl⟩ := List.exists_cons_of_ne_nil h
  simp [idText, ascii]

theorem rewrite_unplaced (contexts : Contexts) (device_id : Text) {m : Text}
    (h : printBrace m = none) : rewrite_status_message contexts device_id m = m ∧
      missedIds (activeContext contexts device_id) m = [] ∧ missedCapability m = .nothing := by
  have hinject : inject_file_capability m = m := by
    rw [inject_file_capability_eq, h]
    simp [missedCapability, h]
  have hids : ∀ c, missedIds c m = [] := by
    intro c
    unfold missedIds
    split
    · rename_i c k hk
      rw [printBrace, hk, Option.bind_some] at h
      simp only [h, Option.isSome_none, Bool.false_eq_true, if_false]
    · rfl
  refine ⟨?_, hids _, by simp [missedCapability, h]⟩
  unfold rewrite_status_message
  simp only [hinject]
  cases contexts device_id with
  | none => rfl
  | some c =>
    cases hk : find m (ascii "\"print\"") 0 with
    | none => simp
    | some k =>
      rw [printBrace, hk, Option.bind_some] at h
      simp only [h, ite_self]

/-- The ids are put in behind the brace of the `print` object, before all that is there. -/
theorem rewrite_tail (contexts : Contexts) (device_id : Text) {m : Text} {b : Nat}
    (h : printBrace m = some b) :
    ∃ tail, Tail m b tail ∧ rewrite_status_message contexts device_id m = m.take b ++ lbrace ::
      ((missedIds (activeContext contexts device_id) m).flatMap idText ++ tail) := by
  obtain ⟨tail, htail, hinject⟩ := inject_file_capability_tail h
  refine ⟨tail, htail, ?_⟩
  obtain ⟨hcut, hlen⟩ := printBrace_cut h
  obtain ⟨k, hk, hb⟩ := Option.bind_eq_some_iff.mp h
  unfold rewrite_status_message activeContext
  simp only [hinject]
  cases contexts device_id with
  | none => simp [missedIds]
  | some c =>
    cases hactive : c.active with
    | false => simp [missedIds, hactive, Option.filter]
    | true =>
      have htake : m.take (b + 1) = (m.take b ++ lbrace :: tail).take (b + 1) := by
        rw [take_cut hcut hlen, take_behind hlen]
      have hbehind := find_behind hk hb (by decide)
      have hk' := find_congr htake (by omega) hk
      have hb' := find_congr htake (by simp) hb
      have hids : missedIds (some c) m = notFound c m k := by
        simp only [missedIds, hk, hb, Option.isSome_some, if_true]
      simp only [hk', hb', hactive, Option.filter, if_true, hids, Bool.not_true,
        Bool.false_eq_true, if_false, notFound_tail c h (Nat.le_of_add_right_le hbehind) htail]
      split_ifs with hnone hempty
      · simp [hnone]
      · exact absurd hempty (flatMap_idText_ne_nil hnone)
      · rw [insertAt, take_behind hlen, drop_behind hlen]
        simp

end bambu_farm_client.local_print_context
