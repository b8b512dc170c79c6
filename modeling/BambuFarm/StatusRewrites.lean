-- A status message that has been rewritten stays as it is: the searches on the
-- rewritten text find all that they looked for, and no branch inserts again. What
-- was inserted can be taken out, and leaves the message of the printer.
import BambuFarm.ContextStore
import BambuFarm.StatusMessages

open json search
open bambu_farm_client.print_job

namespace bambu_farm_client.local_print_context

/-! ## What is inserted -/

/-- The names of the ids of a job. -/
def idNames : List String := ["local-project", "local-profile", "local-subtask"]

/-- An id of a job: a name, a hyphen and digits. -/
def Synthetic (id : Text) : Prop :=
  ∃ pre ∈ idNames, ∃ ds : Text, ds.all isDigit = true ∧ id = ascii pre ++ ascii "-" ++ ds

/-- The text that is inserted for the `file` capability. -/
def capabilityText : Capability → Text
  | .ipcam => ipcamText
  | .file => fileText
  | .nothing => []

/-- The result is the message, with two segments put into it. -/
def PutInto (message first second result : Text) : Prop :=
  ∃ a b c, message = a ++ b ++ c ∧ result = a ++ first ++ b ++ second ++ c

theorem synthetic_local_id (hash : Text → UInt64) {pre : String} (hpre : pre ∈ idNames)
    (dev_id remote_filename : Text) (now : Int64) :
    Synthetic (context_store.synthetic_local_id hash pre dev_id remote_filename now) :=
  ⟨pre, hpre, _, digits_decimal _, rfl⟩

/-! ## Where the searches land -/

/-- What the search misses of the capability, from the key of `ipcam` on. -/
def missedFrom (s : Text) : Capability :=
  match find s [lbrace] 0 with
  | none => .nothing
  | some j =>
    match find s [rbrace] j with
    | none => .nothing
    | some e =>
      if find ((s.drop j).take (e - j)) (ascii "\"file\"") 0 = none then .file else .nothing

/-- What the search misses of the capability, behind the brace of `print`. -/
def missedBehind (t : Text) : Capability :=
  match find t (ascii "\"ipcam\"") 0 with
  | none => .ipcam
  | some i => missedFrom (t.drop i)

theorem find_ipcam {m : Text} {b : Nat} (h : printBrace m = some b) :
    find m (ascii "\"ipcam\"") b =
      (find (m.drop (b + 1)) (ascii "\"ipcam\"") 0).map (· + (b + 1)) := by
  obtain ⟨hcut, hlen⟩ := printBrace_cut h
  have hdrop : m.drop b = [] ++ lbrace :: m.drop (b + 1) := by
    conv_lhs => rw [hcut]
    exact List.drop_left' hlen
  rw [find_drop, hdrop, find_skip (by decide) (by decide), Option.map_map]
  congr 1
  funext i
  simp only [Function.comp_apply, List.length_nil]
  omega

theorem missedFrom_drop (m : Text) (i : Nat) :
    missedFrom (m.drop i) =
      match find m [lbrace] i with
      | none => .nothing
      | some j =>
        match find m [rbrace] j with
        | none => .nothing
        | some e =>
          if find ((m.drop j).take (e - j)) (ascii "\"file\"") 0 = none then .file
          else .nothing := by
  unfold missedFrom
  rw [find_drop m [lbrace] i]
  cases find (m.drop i) [lbrace] 0 with
  | none => rfl
  | some j =>
    simp only [Option.map_some]
    rw [find_drop (m.drop i) [rbrace] j, find_drop m [rbrace] (j + i), List.drop_drop,
      Nat.add_comm i j]
    cases find (m.drop (j + i)) [rbrace] 0 with
    | none => rfl
    | some e =>
      simp only [Option.map_some]
      rw [Nat.add_sub_cancel, Nat.add_sub_cancel]

theorem missedCapability_eq {m : Text} {b : Nat} (h : printBrace m = some b) :
    missedCapability m = missedBehind (m.drop (b + 1)) := by
  unfold missedCapability missedBehind ipcamBrace
  simp only [h, Option.bind_some, find_ipcam h]
  cases find (m.drop (b + 1)) (ascii "\"ipcam\"") 0 with
  | none => rfl
  | some i =>
    simp only [Option.map_some, Option.bind_some]
    rw [List.drop_drop, Nat.add_comm (b + 1) i]
    exact (missedFrom_drop m (i + (b + 1))).symm

/-- A part that has no key of `ipcam` can be put in front. -/
theorem missedBehind_append {w : Text} (h : ¬ ascii "\"ipcam\"" <:+: w) (t : Text) :
    missedBehind (w ++ comma :: t) = missedBehind t := by
  unfold missedBehind
  rw [find_skip (by decide) h]
  cases find t (ascii "\"ipcam\"") 0 with
  | none => rfl
  | some i =>
    simp only [Option.map_some]
    rw [show i + (w.length + 1) = w.length + (i + 1) by omega, List.drop_length_add_append,
      List.drop_succ_cons]

/-! ## The inserted texts -/

/-- The text of the `file` member up to its last brace. -/
theorem fileText_cut : ∃ u, fileText.dropLast = u ++ [rbrace] ∧ rbrace ∉ lbrace :: u ∧
    find (lbrace :: u) (ascii "\"file\"") 0 ≠ none :=
  ⟨fileText.dropLast.dropLast, by decide +kernel, by decide +kernel, by decide +kernel⟩

/-- An object that starts with the `file` member misses nothing. -/
theorem missedFrom_file {q : Text} (hq : lbrace ∉ q) (t : Text) :
    missedFrom (q ++ lbrace :: (fileText.dropLast ++ t)) = .nothing := by
  obtain ⟨u, hu, hrbrace, hfile⟩ := fileText_cut
  have hopen : find (q ++ ([lbrace] ++ (fileText.dropLast ++ t))) [lbrace] 0 = some q.length :=
    find_append hq rfl
  have hclose : find (lbrace :: u ++ ([rbrace] ++ t)) [rbrace] 0 = some (lbrace :: u).length :=
    find_append hrbrace rfl
  have htext : lbrace :: (fileText.dropLast ++ t) = lbrace :: u ++ ([rbrace] ++ t) := by
    simp only [hu, List.append_assoc, List.cons_append]
  unfold missedFrom
  rw [List.singleton_append] at hopen
  simp only [hopen]
  rw [find_drop, List.drop_left, htext, hclose, Option.map_some]
  simp only [Nat.add_sub_cancel, List.take_left, hfile, if_false]

theorem json_escape_plain {t : Text} (h : t.all isPlain = true) : json_escape t = t := by
  induction t with
  | nil => rfl
  | cons c t ih =>
    simp only [List.all_cons, Bool.and_eq_true] at h
    have hc : escapeByte c = [c] := by
      obtain ⟨hc, -⟩ := h
      simp only [isPlain, Bool.and_eq_true, decide_eq_true_eq] at hc
      obtain ⟨⟨hl, hq⟩, hb⟩ := hc
      have hcontrol : ∀ d : UInt8, d < 0x20 → c ≠ d := by
        rintro d hd rfl
        exact absurd hd (UInt8.not_lt.mpr hl)
      simp only [escapeByte, hq, hb, hcontrol 0x0A (by decide), hcontrol 0x0D (by decide),
        hcontrol 0x09 (by decide), if_false]
    rw [json_escape, List.flatMap_cons, hc, List.singleton_append]
    exact congrArg (c :: ·) (ih h.2)

theorem isPlain_digit {c : UInt8} (h : isDigit c = true) : isPlain c = true := by
  obtain ⟨hlow, hhigh⟩ := isDigit_le h
  have hq : c ≠ quote := by
    rintro rfl
    exact absurd hlow (by decide)
  have hb : c ≠ backslash := by
    rintro rfl
    exact absurd hhigh (by decide)
  have hl : 0x20 ≤ c := UInt8.le_trans (by decide) hlow
  simp only [isPlain, hl, hq, hb, decide_true, ne_eq, not_false_eq_true, Bool.and_self]

/-- An id of a job needs no escape, and starts like `local`. -/
theorem Synthetic.text {id : Text} (h : Synthetic id) :
    id.all isPlain = true ∧ id.head? = some 0x6C := by
  obtain ⟨pre, hpre, ds, hds, rfl⟩ := h
  have hname : ∀ pre ∈ idNames, (ascii pre ++ ascii "-").all isPlain = true ∧
      (ascii pre ++ ascii "-").head? = some 0x6C := by
    decide
  obtain ⟨hplain, hhead⟩ := hname pre hpre
  refine ⟨?_, ?_⟩
  · rw [List.all_append, hplain, Bool.true_and, List.all_eq_true]
    exact fun c hc => isPlain_digit (List.all_eq_true.mp hds c hc)
  · rw [List.head?_append, hhead, Option.some_or]

/-- The member of an id has no key of `ipcam`. -/
theorem ipcam_notIn_id {key value : Text} (hkey : key ∈ idKeys) (hvalue : Synthetic value) :
    ¬ ascii "\"ipcam\"" <:+:
      quote :: (key ++ (quote :: ([colon] ++ (quote :: (value ++ [quote]))))) := by
  obtain ⟨hplain, hhead⟩ := hvalue.text
  have hquote : quote ∉ value := fun hmem =>
    absurd (List.all_eq_true.mp hplain _ hmem) (by decide)
  have hkeys : ∀ k ∈ idKeys, quote ∉ k ∧ k.head? ≠ some 0x69 ∧ k ≠ [] := by decide
  obtain ⟨hkquote, hkhead, hkne⟩ := hkeys key hkey
  have hstart : (ascii "\"ipcam\"").head? = some quote := by decide
  have hipcam : ascii "\"ipcam\"" = quote :: 0x69 :: (ascii "pcam" ++ [quote]) := by decide
  rw [List.infix_cons_iff, infix_skip hstart hkquote, List.infix_cons_iff,
    infix_skip hstart (by decide), List.infix_cons_iff, infix_skip hstart hquote]
  rintro (hp | hp | hp | hp)
  · rw [hipcam, List.cons_prefix_cons] at hp
    obtain ⟨c, k, rfl⟩ := List.exists_cons_of_ne_nil hkne
    exact hkhead (by rw [(List.cons_prefix_cons.mp hp.2).1]; rfl)
  · rw [hipcam, List.cons_prefix_cons] at hp
    exact absurd (List.cons_prefix_cons.mp hp.2).1 (by decide)
  · rw [hipcam, List.cons_prefix_cons] at hp
    obtain ⟨v, rfl⟩ := List.head?_eq_some_iff.mp hhead
    exact absurd (List.cons_prefix_cons.mp hp.2).1 (by decide)
  · exact absurd hp.length_le (by decide)

/-- The ids hide nothing from the search for `ipcam`. -/
theorem missedBehind_ids {ids : List (Text × Text)}
    (h : ∀ id ∈ ids, id.1 ∈ idKeys ∧ Synthetic id.2) (t : Text) :
    missedBehind (ids.flatMap idText ++ t) = missedBehind t := by
  induction ids with
  | nil => rfl
  | cons id ids ih =>
    rw [List.forall_mem_cons] at h
    have htext : ∀ u, idText id ++ u =
        quote :: (id.1 ++ (quote :: ([colon] ++ (quote :: (id.2 ++ [quote]))))) ++ comma :: u := by
      intro u
      have hmarks : ascii "\"" = [quote] ∧ ascii "\":\"" = [quote, colon, quote] ∧
          ascii "\"," = [quote, comma] := by
        decide
      simp only [idText, json_escape_plain h.1.2.text.1, hmarks, List.append_assoc,
        List.cons_append, List.nil_append]
    rw [List.flatMap_cons, List.append_assoc, htext, missedBehind_append
      (ipcam_notIn_id h.1.1 h.1.2), ih h.2]

/-! ## A rewritten message -/

/-- The key of `ipcam` is found where it was, and its brace before the text that is put in. -/
theorem missedBehind_file {m q : Text} {b j : Nat} (h : printBrace m = some b)
    (hj : ipcamBrace m = some j) (hlen : j = b + 1 + q.length)
    (hdrop : m.drop (b + 1) = q ++ lbrace :: m.drop (j + 1)) (t : Text) :
    missedBehind (q ++ lbrace :: (fileText.dropLast ++ t)) = .nothing := by
  rw [ipcamBrace, h, Option.bind_some] at hj
  obtain ⟨i', hi', hbrace⟩ := Option.bind_eq_some_iff.mp hj
  have hbehind := find_behind hi' hbrace (by decide)
  rw [find_ipcam h] at hi'
  obtain ⟨i, hi, rfl⟩ := Option.map_eq_some_iff.mp hi'
  have hkey : (ascii "\"ipcam\"").length = 7 := by decide
  have htake : (m.drop (b + 1)).take q.length =
      (q ++ lbrace :: (fileText.dropLast ++ t)).take q.length := by
    rw [hdrop, List.take_left, List.take_left]
  obtain ⟨hcut, hno⟩ := find_between hbrace
  rw [show i + (b + 1) = b + 1 + i by omega, ← List.drop_drop, hdrop,
    List.drop_append_of_le_length (by omega)] at hcut hno
  have hq : lbrace ∉ q.drop i := by
    rwa [← List.append_cancel_right hcut] at hno
  unfold missedBehind
  simp only [find_congr htake (by omega) hi]
  rw [List.drop_append_of_le_length (by omega)]
  exact missedFrom_file hq t

/-- The text with the capability put in misses nothing of it. -/
theorem missedBehind_tail {m tail : Text} {b : Nat} (h : printBrace m = some b)
    (htail : Tail m b tail) : missedBehind tail = .nothing := by
  cases htail with
  | nothing hc => rwa [← missedCapability_eq h]
  | ipcam hc =>
    have htext : ipcamText ++ m.drop (b + 1) = [] ++ (ascii "\"ipcam\"" ++
        ([colon] ++ lbrace :: (fileText.dropLast ++ ([rbrace, comma] ++ m.drop (b + 1))))) := by
      have hkey : ipcamText = ascii "\"ipcam\"" ++
          ([colon] ++ lbrace :: (fileText.dropLast ++ [rbrace, comma])) := by
        decide +kernel
      simp only [hkey, List.append_assoc, List.cons_append, List.nil_append]
    unfold missedBehind
    rw [htext, find_append (x := quote) (by simp) (by decide)]
    simp only [List.length_nil, List.drop_zero, List.nil_append]
    rw [← List.append_assoc]
    exact missedFrom_file (by decide) _
  | @file j q hc hj htake hdrop =>
    obtain ⟨b', j', hb', hj', hlt, hcut, hlen⟩ := ipcamBrace_of_file hc
    cases h.symm.trans hb'
    cases hj.symm.trans hj'
    have hcomma : fileText = fileText.dropLast ++ [comma] := by decide +kernel
    have hlength : j = b + 1 + q.length := by
      have htake' := congrArg List.length ((take_cut hcut hlen).symm.trans htake)
      simp only [List.length_append, List.length_cons, List.length_nil, hlen,
        (printBrace_cut h).2] at htake'
      omega
    rw [hcomma, List.append_assoc]
    exact missedBehind_file h hj hlength hdrop _

section rewritten

variable {contexts : Contexts} {device_id m : Text} {b : Nat}

/-- The message without its rewriting is found in the result. -/
theorem printBrace_rewritten {t : Text} (h : printBrace m = some b) :
    printBrace (m.take b ++ lbrace :: t) = some b := by
  obtain ⟨hcut, hlen⟩ := printBrace_cut h
  obtain ⟨k, hk, hb⟩ := Option.bind_eq_some_iff.mp h
  have htake : m.take (b + 1) = (m.take b ++ lbrace :: t).take (b + 1) := by
    rw [take_cut hcut hlen, take_behind hlen]
  have hbehind := find_behind hk hb (by decide)
  exact Option.bind_eq_some_iff.mpr
    ⟨k, find_congr htake (by omega) hk, find_congr htake (by simp) hb⟩

/-- The member of an id has its key. -/
theorem key_in_idText (id : Text × Text) : quote :: id.1 ++ [quote] <:+: idText id :=
  ⟨[], ascii ":\"" ++ json_escape id.2 ++ ascii "\",", by
    have hmarks : ascii "\"" = [quote] ∧ ascii "\":\"" = quote :: ascii ":\"" := by decide
    simp only [idText, hmarks, List.append_assoc, List.cons_append, List.nil_append]⟩

/-- The ids that were put in are found, and the others are found where they were. -/
theorem missedIds_rewritten {tail : Text} (context : Option LocalPrintContext)
    (h : printBrace m = some b) (htail : Tail m b tail) :
    missedIds context (m.take b ++ lbrace :: ((missedIds context m).flatMap idText ++ tail)) =
      [] := by
  cases context with
  | none => rfl
  | some c =>
    obtain ⟨hcut, hlen⟩ := printBrace_cut h
    obtain ⟨k, hk, hb⟩ := Option.bind_eq_some_iff.mp h
    have hbehind := find_behind hk hb (by decide)
    generalize hr : m.take b ++ lbrace :: ((missedIds (some c) m).flatMap idText ++ tail) = r
    have htake : m.take (b + 1) = r.take (b + 1) := by
      rw [take_cut hcut hlen, ← hr, take_behind hlen]
    have hold : missedIds (some c) m = notFound c m k := by
      simp only [missedIds, hk, hb, Option.isSome_some, if_true]
    have hnew : missedIds (some c) r = notFound c r k := by
      simp only [missedIds, find_congr htake (by omega) hk, find_congr htake (by simp) hb,
        Option.isSome_some, if_true]
    rw [hnew, notFound, List.filter_eq_nil_iff]
    intro id hid
    have hkey : id.1 ∈ idKeys := map_ids c ▸ List.mem_map_of_mem hid
    have hbrace := (punctuation_notMem id.1 hkey).2
    have hdrop : ∀ t : Text, (m.take b ++ lbrace :: t).drop k = (m.take b).drop k ++ lbrace :: t :=
      fun t => List.drop_append_of_le_length (by omega)
    rw [decide_eq_true_eq, find_eq_none_iff, not_not, ← hr, hdrop, infix_append_cons hbrace]
    by_cases hmissed : find m (quote :: id.1 ++ [quote]) k = none
    · have hmem : id ∈ missedIds (some c) m := by
        rw [hold]
        exact List.mem_filter.mpr ⟨hid, decide_eq_true hmissed⟩
      obtain ⟨before, after, hsplit⟩ := List.append_of_mem hmem
      rw [hsplit, List.flatMap_append, List.flatMap_cons, List.append_assoc, List.append_assoc]
      refine .inr ((key_in_idText id).trans ?_)
      exact (List.infix_append _ (idText id) _).trans (by rw [List.append_assoc])
    · rw [find_eq_none_iff, not_not, hcut, hdrop, infix_append_cons hbrace] at hmissed
      rcases hmissed with hbefore | hbehind'
      · exact .inl hbefore
      · rw [← infix_tail hkey htail] at hbehind'
        exact .inr (hbehind'.trans (List.suffix_append _ tail).isInfix)

theorem missedCapability_rewritten {tail : Text} {ids : List (Text × Text)}
    (hids : ∀ id ∈ ids, id.1 ∈ idKeys ∧ Synthetic id.2) (h : printBrace m = some b)
    (htail : Tail m b tail) :
    missedCapability (m.take b ++ lbrace :: (ids.flatMap idText ++ tail)) = .nothing := by
  rw [missedCapability_eq (printBrace_rewritten h), drop_behind (printBrace_cut h).2,
    missedBehind_ids hids, missedBehind_tail h htail]

/-- A message that misses nothing stays as it is. -/
theorem rewrite_complete (hids : missedIds (activeContext contexts device_id) m = [])
    (hcapability : missedCapability m = .nothing) :
    rewrite_status_message contexts device_id m = m := by
  cases hb : printBrace m with
  | none => exact (rewrite_unplaced contexts device_id hb).1
  | some b =>
    obtain ⟨tail, htail, hrewrite⟩ := rewrite_tail contexts device_id hb
    rw [hrewrite, hids]
    cases htail with
    | nothing _ => exact (printBrace_cut hb).1.symm
    | ipcam hc => cases hcapability.symm.trans hc
    | file hc => cases hcapability.symm.trans hc

/-- The capability and the ids are two segments of the result. -/
theorem putInto_tail {tail segment : Text} (h : printBrace m = some b) (htail : Tail m b tail) :
    PutInto m segment (capabilityText (missedCapability m))
      (m.take b ++ lbrace :: (segment ++ tail)) := by
  have hcut := (printBrace_cut h).1
  have hbrace : m = m.take b ++ [lbrace] ++ m.drop (b + 1) := by
    rw [List.append_assoc]
    exact hcut
  cases htail with
  | nothing hc =>
    refine ⟨m.take b ++ [lbrace], m.drop (b + 1), [], by rw [List.append_nil]; exact hbrace, ?_⟩
    simp [hc, capabilityText]
  | ipcam hc =>
    refine ⟨m.take b ++ [lbrace], [], m.drop (b + 1), by rw [List.append_nil]; exact hbrace, ?_⟩
    simp [hc, capabilityText]
  | @file j q hc hj htake hdrop =>
    refine ⟨m.take b ++ [lbrace], q ++ [lbrace], m.drop (j + 1), ?_, ?_⟩
    · simp only [List.append_assoc, List.nil_append, List.cons_append]
      rw [← hdrop]
      exact hcut
    · simp [hc, capabilityText]

end rewritten

/-- Rewriting twice is rewriting once, and the result without what was inserted is the message
of the printer. -/
theorem rewriting_is_idempotent (contexts : Contexts)
    (h : ∀ dev_id context, contexts dev_id = some context →
      ∀ id ∈ ids context, Synthetic id.2) (device_id m : Text) :
    rewrite_status_message contexts device_id (rewrite_status_message contexts device_id m) =
        rewrite_status_message contexts device_id m ∧
      PutInto m ((missedIds (activeContext contexts device_id) m).flatMap idText)
        (capabilityText (missedCapability m)) (rewrite_status_message contexts device_id m) := by
  cases hb : printBrace m with
  | none =>
    obtain ⟨hsame, hids, hcapability⟩ := rewrite_unplaced contexts device_id hb
    rw [hsame, hsame, hids, hcapability]
    exact ⟨rfl, m, [], [], by simp, by simp [capabilityText]⟩
  | some b =>
    obtain ⟨tail, htail, hrewrite⟩ := rewrite_tail contexts device_id hb
    rw [hrewrite]
    have hmissed : ∀ id ∈ missedIds (activeContext contexts device_id) m,
        id.1 ∈ idKeys ∧ Synthetic id.2 := by
      intro id hid
      have hsome : SomeIds (activeContext contexts device_id)
          (missedIds (activeContext contexts device_id) m) := someIds_missed m
      refine ⟨hsome.key hid, ?_⟩
      obtain ⟨p, hp⟩ := hsome
      rw [hp] at hid
      cases hcontext : activeContext contexts device_id with
      | none =>
        rw [hcontext] at hid
        cases hid
      | some context =>
        rw [hcontext] at hid
        exact h device_id context (Option.filter_eq_some_iff.mp hcontext).1 id
          (List.mem_filter.mp hid).1
    exact ⟨rewrite_complete (missedIds_rewritten _ hb htail)
      (missedCapability_rewritten hmissed hb htail), putInto_tail hb htail⟩

/-- A store that has the ids of a job on every device. -/
def jobContexts : Contexts :=
  let id pre := context_store.synthetic_local_id (fun _ => 42) pre (ascii "A1") (ascii "a.3mf") 7
  fun _ => some {
    project_id := id "local-project"
    profile_id := id "local-profile"
    subtask_id := id "local-subtask"
    task_id := id "local-subtask"
    active := true }

theorem a_running_message_is_rewritten_once :
    rewrite_status_message jobContexts (ascii "A1")
        (rewrite_status_message jobContexts (ascii "A1") runningMessage) =
      rewrite_status_message jobContexts (ascii "A1") runningMessage ∧
    PutInto runningMessage
      ((missedIds (activeContext jobContexts (ascii "A1")) runningMessage).flatMap idText)
      (capabilityText (missedCapability runningMessage))
      (rewrite_status_message jobContexts (ascii "A1") runningMessage) := by
  refine rewriting_is_idempotent jobContexts ?_ (ascii "A1") runningMessage
  intro dev_id context hcontext
  cases hcontext
  have hid : ∀ pre ∈ idNames, Synthetic (context_store.synthetic_local_id (fun _ => 42) pre
      (ascii "A1") (ascii "a.3mf") 7) :=
    fun pre hpre => synthetic_local_id _ hpre _ _ _
  simp only [ids, List.forall_mem_cons, List.not_mem_nil, false_implies, implies_true, and_true]
  exact ⟨hid _ (by decide), hid _ (by decide), hid _ (by decide), hid _ (by decide)⟩

end bambu_farm_client.local_print_context
