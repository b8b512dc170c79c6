-- When a rewritten status message is the message with what its `print` object
-- lacked. The search for texts and braces finds the right places in the usual
-- message, and this is the exact condition for it.
import BambuFarm.LocalPrintContext

open json search
open bambu_farm_client.print_job

namespace bambu_farm_client.local_print_context

/-! ## What a print object lacks -/

variable {context : Option LocalPrintContext}

theorem id_key {id : Text × Text} (h : id ∈ context.elim [] ids) : id.1 ∈ idKeys := by
  cases context with
  | none => cases h
  | some c => exact map_ids c ▸ List.mem_map_of_mem h

/-- The ids to add are some of the ids of the context. -/
def SomeIds (context : Option LocalPrintContext) (chosen : List (Text × Text)) : Prop :=
  ∃ p : Text × Text → Bool, chosen = (context.elim [] ids).filter p

theorem SomeIds.key {chosen : List (Text × Text)} (h : SomeIds context chosen)
    {id : Text × Text} (hid : id ∈ chosen) : id.1 ∈ idKeys := by
  obtain ⟨p, rfl⟩ := h
  exact id_key (List.mem_filter.mp hid).1

theorem SomeIds.member_key {chosen : List (Text × Text)} (h : SomeIds context chosen) {m : Member}
    (hm : m ∈ chosen.map idMember) : m.1 ∈ idKeys := by
  obtain ⟨id, hid, rfl⟩ := List.mem_map.mp hm
  exact h.key hid

theorem someIds_nil : SomeIds context [] := ⟨fun _ => false, by simp⟩

theorem someIds_lacking (ps : List Member) : SomeIds context (lackingIds context ps) := ⟨_, rfl⟩

theorem someIds_missed (m : Text) : SomeIds context (missedIds context m) := by
  unfold missedIds
  split
  · split_ifs
    · exact ⟨_, rfl⟩
    · exact someIds_nil
  · exact someIds_nil

theorem idMember_injective : Function.Injective idMember := by
  rintro ⟨k, v⟩ ⟨k', v'⟩ h
  simp only [idMember, Prod.mk.injEq, Value.str.injEq] at h
  rw [h.1, h.2]

/-- Two choices of ids that add the same members are the same choice. -/
theorem SomeIds.eq_of_perm {chosen chosen' : List (Text × Text)} (h : SomeIds context chosen)
    (h' : SomeIds context chosen')
    (hperm : (chosen.map idMember).Perm (chosen'.map idMember)) : chosen = chosen' := by
  have hmem : ∀ id, id ∈ chosen ↔ id ∈ chosen' := by
    intro id
    rw [← List.mem_map_of_injective idMember_injective, hperm.mem_iff,
      List.mem_map_of_injective idMember_injective]
  obtain ⟨p, rfl⟩ := h
  obtain ⟨q, rfl⟩ := h'
  apply List.filter_congr
  intro id hid
  have := hmem id
  simp only [List.mem_filter, hid, true_and] at this
  exact Bool.eq_iff_iff.mpr this

theorem lacking_fresh (ps : List Member) :
    ∀ k ∈ keys ((lackingIds context ps).map idMember), k ∉ keys ps := by
  intro k hk
  obtain ⟨m, hm, rfl⟩ := List.mem_map.mp hk
  obtain ⟨id, hid, rfl⟩ := List.mem_map.mp hm
  exact of_decide_eq_true (List.mem_filter.mp hid).2

theorem ipcam_notMem_idKeys : ascii "ipcam" ∉ idKeys ∧ ascii "file" ∉ idKeys := by
  decide

/-- What a `print` object gains tells what it lacks. -/
theorem GainsCapability.cases {ps qs : List Member} (h : GainsCapability ps qs) :
    (lackingCapability ps = .ipcam ∧ Gains ps qs [ipcamMember]) ∨
    (lackingCapability ps = .file ∧ ∃ before is is' after, ascii "ipcam" ∉ keys before ∧
      Gains is is' [fileMember] ∧ ps = before ++ (ascii "ipcam", .obj is) :: after ∧
      qs = before ++ (ascii "ipcam", .obj is') :: after) ∨
    (lackingCapability ps = .nothing ∧ qs = ps) := by
  cases h with
  | ipcam h =>
    have hfresh : ascii "ipcam" ∉ keys ps := h.fresh (by simp [ipcamMember])
    exact Or.inl ⟨by rw [lackingCapability, lookup_eq_none.mpr hfresh], h⟩
  | file hfirst h =>
    have hfresh := h.fresh (k := ascii "file") (by simp [fileMember])
    exact Or.inr (Or.inl ⟨by simp only [lackingCapability, lookup_first hfirst, hfresh, if_false],
      _, _, _, _, hfirst, h, rfl, rfl⟩)
  | nothing h => exact Or.inr (Or.inr ⟨h, rfl⟩)

theorem lacking_member_key {ps : List Member} {m : Member}
    (h : m ∈ (lackingIds context ps).map idMember) : m.1 ∈ idKeys :=
  (someIds_lacking ps).member_key h

theorem gains_ne {is is' : List Member} (h : Gains is is' [fileMember]) : is ≠ is' := by
  rintro rfl
  simpa using h.length

theorem middle_perm {a b before after : List Member} {x y : Member}
    (h : (a ++ (before ++ x :: after)).Perm (b ++ (before ++ y :: after))) :
    (a ++ [x]).Perm (b ++ [y]) := by
  have hmiddle : ∀ (c : List Member) (z : Member),
      (c ++ (before ++ z :: after)).Perm (c ++ [z] ++ (before ++ after)) := by
    intro c z
    simpa using List.perm_middle.append_left c
  exact (List.perm_append_right_iff _).mp ((hmiddle a x).symm.trans (h.trans (hmiddle b y)))

/-- Members put in before all that is there are what there was to gain. -/
theorem gainsLacking_front {ps added : List Member} (h : GainsLacking context ps (added ++ ps)) :
    (lackingCapability ps = .ipcam ∧
      added.Perm ((lackingIds context ps).map idMember ++ [ipcamMember])) ∨
    (lackingCapability ps = .nothing ∧ added.Perm ((lackingIds context ps).map idMember)) := by
  obtain ⟨qs, hcap, hids⟩ := h
  have hperm := hids.perm
  rcases hcap.cases with ⟨hc, hqs⟩ | ⟨-, before, is, is', after, -, hfile, rfl, rfl⟩ | ⟨hc, rfl⟩
  · refine Or.inl ⟨hc, ?_⟩
    have := hperm.trans (hqs.perm.append_left _)
    rwa [← List.append_assoc, List.perm_append_right_iff] at this
  · have hmem := (middle_perm hperm).mem_iff.mp (List.mem_append_right added
      List.mem_cons_self)
    rcases List.mem_append.mp hmem with hm | hm
    · exact absurd (lacking_member_key hm) ipcam_notMem_idKeys.1
    · simp only [List.mem_singleton, Prod.mk.injEq, Value.obj.injEq, true_and] at hm
      exact absurd hm (gains_ne hfile)
  · rw [List.perm_append_right_iff] at hperm
    exact Or.inr ⟨hc, hperm⟩

theorem gainsLacking_count {ps ps' : List Member} (h : GainsLacking context ps ps') :
    (keys ps').count (ascii "file") = (keys ps).count (ascii "file") := by
  obtain ⟨qs, hcap, hids⟩ := h
  have hfile : ascii "file" ∉ keys ((lackingIds context ps).map idMember) := by
    intro hm
    obtain ⟨m, hm, hk⟩ := List.mem_map.mp hm
    exact ipcam_notMem_idKeys.2 (hk ▸ lacking_member_key hm)
  rw [hids.count hfile]
  rcases hcap.cases with ⟨-, hqs⟩ | ⟨-, before, is, is', after, -, -, rfl, rfl⟩ | ⟨-, rfl⟩
  · exact hqs.count (by simp [ipcamMember, ascii])
  · simp
  · rfl

/-- A `print` object that gains no member gains at most the `file` member further down. -/
theorem gainsLacking_size {ps ps' : List Member} (h : GainsLacking context ps ps')
    (hlen : ps'.length = ps.length) : sizeOf ps' ≤ sizeOf ps + growth [fileMember] := by
  obtain ⟨qs, hcap, hids⟩ := h
  have hids_len := hids.length
  rcases hcap.cases with ⟨-, hqs⟩ | ⟨-, before, is, is', after, -, hfile, rfl, rfl⟩ | ⟨-, rfl⟩
  · have := hqs.length
    simp only [List.length_singleton] at this
    omega
  · simp only [List.length_append, List.length_cons] at hlen hids_len
    have hnone : (lackingIds context (before ++ (ascii "ipcam", .obj is) :: after)).map idMember =
        [] := List.eq_nil_of_length_eq_zero (by omega)
    rw [hnone] at hids
    rw [hids.nothing]
    have hsize := hfile.sizeOf_eq
    have hgrowth := sizeOf_eq_growth [fileMember]
    have hold := sizeOf_append before ((ascii "ipcam", .obj is) :: after)
    have hnew := sizeOf_append before ((ascii "ipcam", .obj is') :: after)
    simp only [List.cons.sizeOf_spec, Prod.mk.sizeOf_spec, Value.obj.sizeOf_spec] at hold hnew
    simp only [List.cons.sizeOf_spec] at hsize hgrowth
    omega
  · have hnone : (lackingIds context qs).map idMember = [] :=
      List.eq_nil_of_length_eq_zero (by omega)
    rw [hnone] at hids
    rw [hids.nothing]
    omega

/-- When one of the old members has changed, it is the `ipcam` object, which has gained its
`file` member. -/
theorem gainsLacking_inside {chosen : List (Text × Text)} (hchosen : SomeIds context chosen)
    {before after : List Member} {k : Text} {y y' : Value} (hne : y ≠ y')
    (h : GainsLacking context (before ++ (k, y) :: after)
      (chosen.map idMember ++ (before ++ (k, y') :: after))) :
    k = ascii "ipcam" ∧ ascii "ipcam" ∉ keys before ∧
      chosen = lackingIds context (before ++ (k, y) :: after) ∧
      lackingCapability (before ++ (k, y) :: after) = .file ∧
      ∃ is is', y = .obj is ∧ y' = .obj is' ∧ Gains is is' [fileMember] := by
  obtain ⟨qs, hcap, hids⟩ := h
  generalize hps : before ++ (k, y) :: after = ps at hcap hids
  have hkeys : keys (before ++ (k, y') :: after) = keys ps := by
    rw [← hps]
    simp
  have hfresh : ∀ k' ∈ keys ((lackingIds context ps).map idMember),
      k' ∉ keys (before ++ (k, y') :: after) := by
    rw [hkeys]
    exact lacking_fresh ps
  obtain ⟨rest, hrest, hqs⟩ : ∃ rest, rest ⊆ chosen.map idMember ∧
      qs = rest ++ (before ++ (k, y') :: after) := by
    refine ⟨(chosen.map idMember).filter fun m =>
      m.1 ∉ keys ((lackingIds context ps).map idMember), List.filter_subset_self _, ?_⟩
    rw [← hids.kept, List.filter_append, filter_fresh hfresh]
  have hlen : qs.length = rest.length + ps.length := by
    rw [hqs, ← hps]
    simp
  have hperm := hids.perm
  rcases hcap.cases with ⟨-, hgain⟩ | ⟨hc, before', is, is', after', hfirst, hfile, hold, hnew⟩ |
    ⟨-, hsame⟩
  · have hmem := mem_keys (hgain.mem_new List.mem_cons_self)
    rw [hqs, keys_append, hkeys, List.mem_append] at hmem
    rcases hmem with hm | hm
    · obtain ⟨m, hm, hk⟩ := List.mem_map.mp hm
      have hkey := hchosen.member_key (hrest hm)
      rw [hk] at hkey
      exact absurd hkey ipcam_notMem_idKeys.1
    · exact absurd hm (hgain.fresh (by simp))
  · have hnil : rest = [] := by
      apply List.eq_nil_of_length_eq_zero
      rw [hnew, hold] at hlen
      simp only [List.length_append, List.length_cons] at hlen
      omega
    rw [hnil, List.nil_append] at hqs
    rw [hqs, List.perm_append_right_iff] at hperm
    have hdiff : (k, y) ≠ (k, y') := fun he => hne (Prod.mk.inj he).2
    obtain ⟨rfl, hxy, hxy', rfl⟩ := replaced_unique (hps.trans hold) (hqs.symm.trans hnew) hdiff
    cases hxy
    cases hxy'
    exact ⟨rfl, hfirst, hchosen.eq_of_perm (someIds_lacking ps) hperm, hc, is, is', rfl, rfl, hfile⟩
  · have hnil : rest = [] := by
      apply List.eq_nil_of_length_eq_zero
      rw [hsame] at hlen
      omega
    rw [hnil, List.nil_append, hsame, ← hps, List.append_cancel_left_eq] at hqs
    cases hqs
    exact absurd rfl hne

/-! ## Where the members must have been put -/

theorem gains_put {hs : List Hole} {ms added is is' : List Member}
    (h : Gains is is' [fileMember]) (hold : plug hs (.obj ms) = .obj is)
    (hnew : plug hs (.obj (added ++ ms)) = .obj is') :
    hs = [] ∧ ms = is ∧ added = [fileMember] := by
  rcases put_cases hold hnew with ⟨rfl, rfl, rfl⟩ | ⟨hs₁, before, k, after, -, rfl, rfl⟩
  · have hperm := h.perm
    rw [List.perm_append_right_iff] at hperm
    exact ⟨rfl, rfl, List.perm_singleton.mp hperm⟩
  · have := h.length
    simp at this

/-- Members that complete a message were put into its `print` object, or further down. -/
theorem completes_put {hs : List Hole} {ms added : List Member} (hne : added ≠ [])
    (h : Completes context (plug hs (.obj ms)) (plug hs (.obj (added ++ ms)))) :
    ∃ hs₁ before after ps ps', hs = hs₁ ++ [.member before (ascii "print") after] ∧
      ascii "print" ∉ keys before ∧ plug hs₁ (.obj ms) = .obj ps ∧
      plug hs₁ (.obj (added ++ ms)) = .obj ps' ∧ GainsLacking context ps ps' := by
  have hdiff := put_ne hs hne ms
  generalize hv : plug hs (.obj ms) = v at h hdiff
  generalize hv' : plug hs (.obj (added ++ ms)) = v' at h hdiff
  cases h with
  | other => exact absurd rfl hdiff
  | @print before ps ps' after hfirst hgain =>
    obtain ⟨hs₁, a, k, b, rfl, htop, htop', hput⟩ := put_inside hne hv hv' (by simp)
    obtain ⟨rfl, hx, hx', rfl⟩ := replaced_unique htop.symm htop'.symm hput
    rw [Prod.mk.injEq] at hx hx'
    obtain ⟨rfl, hx⟩ := hx
    exact ⟨hs₁, _, _, ps, ps', rfl, hfirst, hx, hx'.2, hgain⟩

/-- Members that complete a message were put into its `print` object, unless there is but a
`file` member, which was put into the `ipcam` object. -/
theorem completes_level {hs : List Hole} {ms added : List Member} (hne : added ≠ [])
    (h : Completes context (plug hs (.obj ms)) (plug hs (.obj (added ++ ms)))) :
    ∃ before after, ascii "print" ∉ keys before ∧
      ((hs = [.member before (ascii "print") after] ∧ GainsLacking context ms (added ++ ms)) ∨
      ∃ inner rest, hs = [.member inner (ascii "ipcam") rest,
          .member before (ascii "print") after] ∧
        ascii "ipcam" ∉ keys inner ∧ added = [fileMember] ∧
        lackingIds context (inner ++ (ascii "ipcam", .obj ms) :: rest) = [] ∧
        lackingCapability (inner ++ (ascii "ipcam", .obj ms) :: rest) = .file) := by
  obtain ⟨hs₁, before, after, ps, ps', rfl, hfirst, hps, hps', hgain⟩ := completes_put hne h
  refine ⟨before, after, hfirst, ?_⟩
  rcases put_cases hps hps' with ⟨rfl, rfl, rfl⟩ | ⟨hs₂, inner, k, rest, rfl, rfl, rfl⟩
  · exact Or.inl ⟨rfl, hgain⟩
  · obtain ⟨rfl, hinner, hids, hcap, is, is', hy, hy', hfile⟩ :=
      gainsLacking_inside someIds_nil (put_ne hs₂ hne ms) hgain
    obtain ⟨rfl, rfl, hadded⟩ := gains_put hfile hy hy'
    exact Or.inr ⟨inner, rest, rfl, hinner, hadded, hids.symm, hcap⟩

/-- The member that is put into the `print` object for the capability. -/
def capabilityMembers : Capability → List Member
  | .ipcam => [ipcamMember]
  | .file => []
  | .nothing => []

theorem completes_front {chosen : List (Text × Text)} (hchosen : SomeIds context chosen)
    {c : Capability} (hc : c ≠ .file) (hne : chosen.map idMember ++ capabilityMembers c ≠ [])
    {hs : List Hole} {ms : List Member}
    (h : Completes context (plug hs (.obj ms))
      (plug hs (.obj (chosen.map idMember ++ capabilityMembers c ++ ms)))) :
    ∃ before after, hs = [.member before (ascii "print") after] ∧ ascii "print" ∉ keys before ∧
      chosen = lackingIds context ms ∧ c = lackingCapability ms := by
  have hids : ipcamMember ∉ chosen.map idMember :=
    fun hm => ipcam_notMem_idKeys.1 (hchosen.member_key hm)
  obtain ⟨before, after, hfirst, ⟨rfl, hgain⟩ | ⟨inner, rest, -, -, hadded, -⟩⟩ :=
    completes_level hne h
  · refine ⟨before, after, rfl, hfirst, ?_⟩
    rcases gainsLacking_front hgain with ⟨hcap, hperm⟩ | ⟨hcap, hperm⟩
    · cases c with
      | ipcam =>
        rw [capabilityMembers, List.perm_append_right_iff] at hperm
        exact ⟨hchosen.eq_of_perm (someIds_lacking ms) hperm, hcap.symm⟩
      | file => exact absurd rfl hc
      | nothing =>
        rw [capabilityMembers, List.append_nil] at hperm
        exact absurd (hperm.mem_iff.mpr (by simp)) hids
    · cases c with
      | ipcam =>
        have hm := hperm.mem_iff.mp (List.mem_append_right _ (List.mem_singleton.mpr rfl))
        exact absurd (lacking_member_key hm) ipcam_notMem_idKeys.1
      | file => exact absurd rfl hc
      | nothing =>
        rw [capabilityMembers, List.append_nil] at hperm
        exact ⟨hchosen.eq_of_perm (someIds_lacking ms) hperm, hcap.symm⟩
  · have hm : fileMember ∈ chosen.map idMember ++ capabilityMembers c := by
      rw [hadded]
      exact List.mem_cons_self
    rcases List.mem_append.mp hm with hm | hm
    · exact absurd (hchosen.member_key hm) ipcam_notMem_idKeys.2
    · cases c with
      | ipcam =>
        have := congrArg Prod.fst (List.mem_singleton.mp hm)
        exact absurd this (by decide)
      | file => cases hm
      | nothing => cases hm

theorem completes_file {hs : List Hole} {ms : List Member}
    (h : Completes context (plug hs (.obj ms)) (plug hs (.obj ([fileMember] ++ ms)))) :
    ∃ inner rest before after,
      hs = [.member inner (ascii "ipcam") rest, .member before (ascii "print") after] ∧
      ascii "ipcam" ∉ keys inner ∧ ascii "print" ∉ keys before ∧
      lackingIds context (inner ++ (ascii "ipcam", .obj ms) :: rest) = [] ∧
      lackingCapability (inner ++ (ascii "ipcam", .obj ms) :: rest) = .file := by
  obtain ⟨before, after, hfirst, ⟨rfl, hgain⟩ | ⟨inner, rest, hhs, hinner, -, hlack⟩⟩ :=
    completes_level (List.cons_ne_nil _ _) h
  · have hcount := gainsLacking_count hgain
    simp [fileMember] at hcount
  · exact ⟨inner, rest, before, after, hhs, hinner, hfirst, hlack⟩

/-- Two edits in a row make a value larger by what both put in. -/
theorem sizeOf_put_put {hs₁ hs₂ : List Hole} {ms ms₁ added₁ : List Member} (added₂ : List Member)
    (hmid : plug hs₁ (.obj (added₁ ++ ms)) = plug hs₂ (.obj ms₁)) :
    sizeOf (plug hs₂ (.obj (added₂ ++ ms₁))) =
      sizeOf (plug hs₁ (.obj ms)) + growth added₁ + growth added₂ := by
  rw [sizeOf_put, ← hmid, sizeOf_put]

/-- Two edits that complete a message together were both made in its `print` object. -/
theorem completes_put_put {hs₁ hs₂ : List Hole} {ms ms₁ added₁ added₂ : List Member}
    (hne₁ : added₁ ≠ []) (hne₂ : added₂ ≠ [])
    (hmid : plug hs₁ (.obj (added₁ ++ ms)) = plug hs₂ (.obj ms₁))
    (h : Completes context (plug hs₁ (.obj ms)) (plug hs₂ (.obj (added₂ ++ ms₁)))) :
    ∃ g₁ g₂ before after ps ps', hs₁ = g₁ ++ [.member before (ascii "print") after] ∧
      hs₂ = g₂ ++ [.member before (ascii "print") after] ∧ ascii "print" ∉ keys before ∧
      plug g₁ (.obj ms) = .obj ps ∧
      plug g₁ (.obj (added₁ ++ ms)) = plug g₂ (.obj ms₁) ∧
      plug g₂ (.obj (added₂ ++ ms₁)) = .obj ps' ∧ GainsLacking context ps ps' := by
  have hpos := growth_pos hne₁
  have hsize := sizeOf_put_put added₂ hmid
  generalize hv : plug hs₁ (.obj ms) = v at h hsize
  generalize hv' : plug hs₂ (.obj (added₂ ++ ms₁)) = v' at h hsize
  cases h with
  | other => omega
  | @print before ps ps' after hfirst hgain =>
    obtain ⟨top, htop⟩ := plug_obj hv (added₁ ++ ms)
    have hle₁ := put_length hv htop
    have hle₂ := put_length (hmid.symm.trans htop) hv'
    simp only [List.length_append, List.length_cons] at hle₁ hle₂
    obtain ⟨g₁, a, k₁, b, rfl, h₁, h₁', hx⟩ := put_inside hne₁ hv htop (by
      simp only [List.length_append, List.length_cons]
      omega)
    obtain ⟨g₂, c, k₂, d, rfl, h₂, h₂', hy⟩ := put_inside hne₂ (hmid.symm.trans htop) hv' (by
      simp only [List.length_append, List.length_cons]
      omega)
    have hxy : (k₁, plug g₁ (.obj (added₁ ++ ms))) = (k₂, plug g₂ (.obj ms₁)) →
        (k₁, plug g₁ (.obj ms)) ≠ (k₂, plug g₂ (.obj (added₂ ++ ms₁))) := by
      intro hm he
      have hgrown := sizeOf_put_put added₂ (Prod.mk.inj hm).2
      rw [(Prod.mk.inj he).2] at hgrown
      omega
    obtain ⟨rfl, hm, rfl, rfl, hz, hz', rfl⟩ :=
      replaced_twice h₁.symm (h₁'.symm.trans h₂) h₂'.symm hx hy hxy
    rw [Prod.mk.injEq] at hz hz' hm
    obtain ⟨rfl, hz⟩ := hz
    obtain ⟨rfl, hm⟩ := hm
    exact ⟨g₁, g₂, _, _, ps, ps', rfl, rfl, hfirst, hz, hm, hz'.2, hgain⟩

/-- Two edits that complete a message together: the `file` member was put into the `ipcam`
object and the ids into the `print` object around it. -/
theorem completes_both {chosen : List (Text × Text)} (hchosen : SomeIds context chosen)
    (hne : chosen ≠ []) {hs₁ hs₂ : List Hole} {ms ms₁ : List Member}
    (hmid : plug hs₁ (.obj ([fileMember] ++ ms)) = plug hs₂ (.obj ms₁))
    (h : Completes context (plug hs₁ (.obj ms))
      (plug hs₂ (.obj (chosen.map idMember ++ ms₁)))) :
    ∃ inner rest before after,
      hs₁ = [.member inner (ascii "ipcam") rest, .member before (ascii "print") after] ∧
      hs₂ = [.member before (ascii "print") after] ∧
      ascii "ipcam" ∉ keys inner ∧ ascii "print" ∉ keys before ∧
      chosen = lackingIds context (inner ++ (ascii "ipcam", .obj ms) :: rest) ∧
      lackingCapability (inner ++ (ascii "ipcam", .obj ms) :: rest) = .file := by
  have hids : chosen.map idMember ≠ [] := by simpa using hne
  obtain ⟨g₁, g₂, before, after, ps, ps', rfl, rfl, hfirst, hps, hmid, hps', hgain⟩ :=
    completes_put_put (List.cons_ne_nil _ _) hids hmid h
  obtain ⟨ps₁, hps₁⟩ := plug_obj hps ([fileMember] ++ ms)
  rcases put_cases hps hps₁ with ⟨-, -, h₁⟩ | ⟨g₁, inner, k, rest, rfl, h₁, h₁'⟩
  · have hcount := put_count (hmid.symm.trans hps₁) hps' (ascii "file")
    rw [gainsLacking_count hgain, h₁] at hcount
    simp [fileMember] at hcount
  · rcases put_cases (hmid.symm.trans hps₁) hps' with ⟨rfl, -, h₂⟩ | ⟨g₂, c, k₂, d, rfl, h₂, h₂'⟩
    · subst h₁ h₁' h₂
      obtain ⟨rfl, hinner, hids, hcap, is, is', hy, hy', hfile⟩ :=
        gainsLacking_inside hchosen (put_ne g₁ (List.cons_ne_nil _ _) ms) hgain
      obtain ⟨rfl, rfl, -⟩ := gains_put hfile hy hy'
      exact ⟨inner, rest, before, after, rfl, rfl, hinner, hfirst, hids, hcap⟩
    · have hgrown := sizeOf_put_put (chosen.map idMember) hmid
      have hpos := growth_pos hids
      have hlen : ps'.length = ps.length := by
        have hlen₁ := congrArg List.length (h₁'.symm.trans h₂)
        simp only [List.length_append, List.length_cons] at hlen₁
        simp only [h₁, h₂', List.length_append, List.length_cons]
        omega
      have hle := gainsLacking_size hgain hlen
      rw [hps, hps'] at hgrown
      simp only [Value.obj.sizeOf_spec] at hgrown
      omega

/-! ## Completed messages -/

theorem printObject_first {before ps after : List Member} (h : ascii "print" ∉ keys before) :
    printObject (.obj (before ++ (ascii "print", .obj ps) :: after)) = some ps := by
  simp only [printObject, lookup_first h]

theorem first_of_printObject {v : Value} {ps : List Member} (h : printObject v = some ps) :
    ∃ before after, ascii "print" ∉ keys before ∧
      v = .obj (before ++ (ascii "print", .obj ps) :: after) := by
  unfold printObject at h
  split at h
  · rename_i ms
    split at h
    · rename_i qs hlookup
      cases h
      obtain ⟨before, after, rfl, hfirst⟩ := first_of_lookup hlookup
      exact ⟨before, after, hfirst, rfl⟩
    · cases h
  · cases h

theorem nodup_lacking (ps : List Member) :
    (keys ((lackingIds context ps).map idMember)).Nodup := by
  have hkeys : keys ((lackingIds context ps).map idMember) =
      (lackingIds context ps).map Prod.fst := by
    simp only [keys, List.map_map]
    rfl
  have hall : ((context.elim [] ids).map Prod.fst).Nodup := by
    cases context with
    | none => exact List.nodup_nil
    | some c =>
      rw [Option.elim_some, map_ids]
      decide
  rw [hkeys]
  exact hall.sublist (List.filter_sublist.map Prod.fst)

theorem GainsCapability.grows {ps qs : List Member} (h : GainsCapability ps qs) :
    Grows (.obj ps) (.obj qs) := by
  cases h with
  | ipcam h => exact .gain h (by simp)
  | file hfirst h => exact .inside (.member _ _ _) (.gain h (by simp))
  | nothing => exact .refl _

/-- A message that is completed gains no duplicate key. -/
theorem Completes.grows {v v' : Value} (h : Completes context v v') : Grows v v' := by
  cases h with
  | print hfirst hgain =>
    obtain ⟨qs, hcap, hids⟩ := hgain
    exact .inside (.member _ _ _) (hcap.grows.trans (.gain hids (nodup_lacking _)))
  | other => exact .refl _

theorem capability_members_notMem {c : Capability} {ps : List Member} {k : Text}
    (h : k ∈ keys ((lackingIds context ps).map idMember)) :
    k ∉ keys (capabilityMembers c ++ ps) := by
  obtain ⟨m, hm, rfl⟩ := List.mem_map.mp h
  have hfresh := lacking_fresh ps m.1 h
  have hkey := lacking_member_key hm
  cases c with
  | ipcam =>
    simp only [capabilityMembers, keys_append, List.mem_append, not_or]
    refine ⟨fun hm => ?_, hfresh⟩
    rw [List.mem_singleton.mp hm] at hkey
    exact ipcam_notMem_idKeys.1 hkey
  | file => exact hfresh
  | nothing => exact hfresh

/-- Members put in before all that is in a `print` object complete it, when they are what it
lacks. -/
theorem gainsLacking_of_front {ms : List Member} (h : lackingCapability ms ≠ .file) :
    GainsLacking context ms ((lackingIds context ms).map idMember ++
      capabilityMembers (lackingCapability ms) ++ ms) := by
  rw [List.append_assoc]
  refine ⟨_, ?_, .front fun k hk => capability_members_notMem hk⟩
  cases hc : lackingCapability ms with
  | ipcam =>
    apply GainsCapability.ipcam
    apply Gains.front
    intro k hk
    rw [List.mem_singleton.mp hk, ← lookup_eq_none]
    unfold lackingCapability at hc
    split at hc
    · assumption
    · split_ifs at hc
    · cases hc
  | file => exact absurd hc h
  | nothing => exact .nothing hc

theorem gainsLacking_of_file {inner ms rest : List Member} (hinner : ascii "ipcam" ∉ keys inner)
    (h : lackingCapability (inner ++ (ascii "ipcam", .obj ms) :: rest) = .file) :
    GainsLacking context (inner ++ (ascii "ipcam", .obj ms) :: rest)
      ((lackingIds context (inner ++ (ascii "ipcam", .obj ms) :: rest)).map idMember ++
        (inner ++ (ascii "ipcam", .obj ([fileMember] ++ ms)) :: rest)) := by
  have hfresh : ascii "file" ∉ keys ms := by
    simp only [lackingCapability, lookup_first hinner] at h
    split_ifs at h with hm
    exact hm
  refine ⟨_, .file hinner (.front fun k hk => ?_), .front fun k hk => ?_⟩
  · rw [List.mem_singleton.mp hk]
    exact hfresh
  · have := lacking_fresh _ k hk
    simpa using this

theorem gainsLacking_self {ps : List Member} (h : GainsLacking context ps ps) :
    lackingIds context ps = [] ∧ lackingCapability ps = .nothing := by
  have hfront : GainsLacking context ps ([] ++ ps) := h
  rcases gainsLacking_front hfront with ⟨-, hperm⟩ | ⟨hcap, hperm⟩
  · simpa using hperm.length_eq
  · exact ⟨List.map_eq_nil_iff.mp hperm.nil_eq.symm, hcap⟩

/-- A message as it is is complete exactly when its `print` object lacks nothing. -/
theorem completes_self {v : Value} : Completes context v v ↔
    (printObject v).elim [] (lackingIds context) = [] ∧
      (printObject v).elim .nothing lackingCapability = .nothing := by
  constructor
  · intro h
    obtain ⟨w, hw, h⟩ : ∃ w, v = w ∧ Completes context v w := ⟨v, rfl, h⟩
    cases h with
    | print hfirst hgain =>
      rw [Value.obj.injEq, List.append_cancel_left_eq] at hw
      cases hw
      rw [printObject_first hfirst]
      exact gainsLacking_self hgain
    | other hp => simp [hp]
  · rintro ⟨hids, hcap⟩
    cases hp : printObject v with
    | none => exact .other hp
    | some ps =>
      obtain ⟨before, after, hfirst, rfl⟩ := first_of_printObject hp
      rw [hp, Option.elim_some] at hids hcap
      have hsame : Gains ps ([] ++ ps) [] := .front (by simp)
      refine .print hfirst ⟨ps, .nothing hcap, ?_⟩
      rw [hids]
      exact hsame

/-! ## The rewritten message -/

def capabilityEntries : Capability → List (Text × Text)
  | .ipcam => [ipcamEntry]
  | .file => []
  | .nothing => []

theorem members_front {chosen : List (Text × Text)} (hchosen : SomeIds context chosen)
    (h : ∀ id ∈ chosen, id.2.all isEscapable = true) (c : Capability) :
    Members (chosen.map idEntry ++ capabilityEntries c)
      (chosen.map idMember ++ capabilityMembers c) := by
  have hids := members_ids (fun id hid => hchosen.key hid) h
  cases c with
  | ipcam => exact List.rel_append hids members_ipcam
  | file => exact List.rel_append hids .nil
  | nothing => exact List.rel_append hids .nil

theorem lettered : ∀ k ∈ ascii "ipcam" :: ascii "file" :: idKeys,
    ∃ c rest, k = c :: rest ∧ 0x61 ≤ c ∧ c ≤ 0x7A := by
  intro k hk
  simp only [idKeys, List.mem_cons, List.not_mem_nil, or_false] at hk
  rcases hk with rfl | rfl | rfl | rfl | rfl | rfl <;> exact ⟨_, _, rfl, by decide⟩

theorem quoted_ids {chosen : List (Text × Text)} (hchosen : SomeIds context chosen)
    (hne : chosen ≠ []) (ts : List (Text × Text)) :
    Quoted (commaText (chosen.map idEntry ++ ts)) := by
  obtain ⟨id, chosen, rfl⟩ := List.exists_cons_of_ne_nil hne
  obtain ⟨d, rest, hd, hletter⟩ := lettered id.1 (by simp [hchosen.key List.mem_cons_self])
  exact quoted_commaText hd hletter

theorem quoted_front {chosen : List (Text × Text)} (hchosen : SomeIds context chosen)
    {c : Capability} (hne : chosen ≠ [] ∨ c = .ipcam) :
    Quoted (commaText (chosen.map idEntry ++ capabilityEntries c)) := by
  cases chosen with
  | nil =>
    obtain rfl := hne.resolve_left (by simp)
    obtain ⟨d, rest, hd, hletter⟩ := lettered (ascii "ipcam") (by simp)
    exact quoted_commaText hd hletter
  | cons id chosen => exact quoted_ids hchosen (List.cons_ne_nil _ _) _

/-- Ids with another control character make a message unreadable, wherever they are put. -/
theorem parse_ids_none {p s₀ : Text} {v : Value} (h : parse (p ++ lbrace :: s₀) = some v)
    {chosen : List (Text × Text)} (hchosen : SomeIds context chosen)
    (hescape : ¬ ∀ id ∈ chosen, id.2.all isEscapable = true) (s : Text) :
    parse (p ++ lbrace :: (commaText (chosen.map idEntry) ++ s)) = none := by
  have hne : chosen ≠ [] := by
    rintro rfl
    exact hescape (by simp)
  have hquoted := quoted_ids hchosen hne []
  rw [List.append_nil] at hquoted
  apply parse_put_unreadable h hquoted
  intro fs b
  exact run_ids_none (fun id hid => hchosen.key hid) hescape (Or.inl rfl) _ _ _ _

theorem front_ne_nil {chosen : List (Text × Text)} {c : Capability}
    (hne : chosen ≠ [] ∨ c = .ipcam) :
    chosen.map idEntry ++ capabilityEntries c ≠ [] ∧
      chosen.map idMember ++ capabilityMembers c ≠ [] := by
  rcases hne with hne | rfl
  · simp [hne]
  · simp [capabilityEntries, capabilityMembers]

/-- Members put in behind a brace of the message complete it exactly when the brace opens the
`print` object, this object is not empty, and the members are what it lacks. -/
theorem completes_front_iff {p s : Text} {v : Value} (h : parse (p ++ lbrace :: s) = some v)
    {chosen : List (Text × Text)} (hchosen : SomeIds context chosen) {c : Capability}
    (hc : c ≠ .file) (hne : chosen ≠ [] ∨ c = .ipcam) :
    (∃ v', parse (p ++ lbrace :: (commaText (chosen.map idEntry ++ capabilityEntries c) ++ s)) =
      some v' ∧ Completes context v v') ↔
    (∀ id ∈ chosen, id.2.all isEscapable = true) ∧ KeyNext s ∧
      ∃ before after ms, ascii "print" ∉ keys before ∧
        run start (p ++ [lbrace]) =
          some ⟨[.obj [] [], .obj before (ascii "print")], .objStart⟩ ∧
        v = .obj (before ++ (ascii "print", .obj ms) :: after) ∧
        chosen = lackingIds context ms ∧ c = lackingCapability ms := by
  obtain ⟨hentries, hmembers⟩ := front_ne_nil hne
  have hquoted := quoted_front hchosen hne
  by_cases hescape : ∀ id ∈ chosen, id.2.all isEscapable = true
  · have hadds := adds_commaText (members_front hchosen hescape c) hentries
    constructor
    · rintro ⟨v', hv', hcompletes⟩
      obtain ⟨hnext, hs, ms, hrun, hold, rfl⟩ := (parse_put h hadds hquoted).mp hv'
      cases h.symm.trans hold
      obtain ⟨before, after, rfl, hfirst, hids, hcap⟩ :=
        completes_front hchosen hc hmembers hcompletes
      exact ⟨hescape, hnext, before, after, ms, hfirst, hrun, rfl, hids, hcap⟩
    · rintro ⟨-, hnext, before, after, ms, hfirst, hrun, rfl, rfl, rfl⟩
      refine ⟨_, (parse_put h hadds hquoted).mpr ⟨hnext,
        [.member before (ascii "print") after], ms, hrun, h, rfl⟩, ?_⟩
      exact .print hfirst (gainsLacking_of_front hc)
  · rw [commaText_append, List.append_assoc, parse_ids_none h hchosen hescape]
    constructor
    · rintro ⟨v', hv', -⟩
      cases hv'
    · exact fun hall => absurd hall.1 hescape

theorem adds_file : Adds fileText [fileMember] ∧ Quoted fileText := by
  obtain ⟨d, rest, hd, hletter⟩ := lettered (ascii "file") (by simp)
  rw [fileText_eq]
  exact ⟨adds_commaText members_file (by simp), quoted_commaText hd hletter⟩

/-- The `file` member alone, put in behind a brace of the message. -/
theorem completes_file_iff {p s : Text} {v : Value} (h : parse (p ++ lbrace :: s) = some v) :
    (∃ v', parse (p ++ lbrace :: (fileText ++ s)) = some v' ∧ Completes context v v') ↔
    KeyNext s ∧ ∃ inner rest before after ms,
      ascii "ipcam" ∉ keys inner ∧ ascii "print" ∉ keys before ∧
      run start (p ++ [lbrace]) = some ⟨[.obj [] [], .obj inner (ascii "ipcam"),
        .obj before (ascii "print")], .objStart⟩ ∧
      v = .obj (before ++ (ascii "print",
        .obj (inner ++ (ascii "ipcam", .obj ms) :: rest)) :: after) ∧
      lackingIds context (inner ++ (ascii "ipcam", .obj ms) :: rest) = [] ∧
      lackingCapability (inner ++ (ascii "ipcam", .obj ms) :: rest) = .file := by
  constructor
  · rintro ⟨v', hv', hcompletes⟩
    obtain ⟨hnext, hs, ms, hrun, hold, rfl⟩ := (parse_put h adds_file.1 adds_file.2).mp hv'
    cases h.symm.trans hold
    obtain ⟨inner, rest, before, after, rfl, hinner, hfirst, hids, hcap⟩ :=
      completes_file hcompletes
    exact ⟨hnext, inner, rest, before, after, ms, hinner, hfirst, hrun, rfl, hids, hcap⟩
  · rintro ⟨hnext, inner, rest, before, after, ms, hinner, hfirst, hrun, rfl, hids, hcap⟩
    refine ⟨_, (parse_put h adds_file.1 adds_file.2).mpr ⟨hnext,
      [.member inner (ascii "ipcam") rest, .member before (ascii "print") after], ms, hrun, h,
      rfl⟩, ?_⟩
    refine .print hfirst ?_
    have hgain : GainsLacking context _ _ := gainsLacking_of_file hinner hcap
    rwa [hids] at hgain

/-- The `file` member and the ids, put in behind two braces of the message. -/
theorem completes_both_iff {p q s : Text} {v : Value}
    (h : parse (p ++ lbrace :: (q ++ lbrace :: s)) = some v) {chosen : List (Text × Text)}
    (hchosen : SomeIds context chosen) (hne : chosen ≠ []) :
    (∃ v', parse (p ++ lbrace :: (commaText (chosen.map idEntry) ++
      (q ++ lbrace :: (fileText ++ s)))) = some v' ∧ Completes context v v') ↔
    (∀ id ∈ chosen, id.2.all isEscapable = true) ∧ KeyNext s ∧ KeyNext (q ++ lbrace :: s) ∧
      ∃ inner rest before after ms,
      ascii "ipcam" ∉ keys inner ∧ ascii "print" ∉ keys before ∧
      run start (p ++ lbrace :: q ++ [lbrace]) = some ⟨[.obj [] [], .obj inner (ascii "ipcam"),
        .obj before (ascii "print")], .objStart⟩ ∧
      run start (p ++ [lbrace]) = some ⟨[.obj [] [], .obj before (ascii "print")], .objStart⟩ ∧
      v = .obj (before ++ (ascii "print",
        .obj (inner ++ (ascii "ipcam", .obj ms) :: rest)) :: after) ∧
      chosen = lackingIds context (inner ++ (ascii "ipcam", .obj ms) :: rest) ∧
      lackingCapability (inner ++ (ascii "ipcam", .obj ms) :: rest) = .file := by
  have hentries : chosen.map idEntry ≠ [] := by simpa using hne
  have hquoted := quoted_ids hchosen hne []
  rw [List.append_nil] at hquoted
  have hassoc : ∀ t, p ++ lbrace :: (q ++ lbrace :: t) = (p ++ lbrace :: q) ++ lbrace :: t := by
    intro t
    simp
  have hinner_text := h
  rw [hassoc] at hinner_text
  by_cases hescape : ∀ id ∈ chosen, id.2.all isEscapable = true
  · have hadds := adds_commaText (members_ids (fun id hid => hchosen.key hid) hescape) hentries
    constructor
    · rintro ⟨v', hv', hcompletes⟩
      obtain ⟨hnext₂, hs₂, ms₁, hrun₂, hmid, rfl⟩ := (parse_put h hadds hquoted).mp hv'
      rw [hassoc] at hmid
      obtain ⟨hnext, hs₁, ms, hrun, hold, hplug⟩ :=
        (parse_put hinner_text adds_file.1 adds_file.2).mp hmid
      cases hinner_text.symm.trans hold
      obtain ⟨inner, rest, before, after, rfl, rfl, hinner, hfirst, hids, hcap⟩ :=
        completes_both hchosen hne hplug.symm hcompletes
      exact ⟨hescape, hnext, (keyNext_brace q _ _).mp hnext₂, inner, rest, before, after, ms,
        hinner, hfirst, hrun, hrun₂, rfl, hids, hcap⟩
    · rintro ⟨-, hnext, hnext₂, inner, rest, before, after, ms, hinner, hfirst, hrun, hrun₂, rfl,
        hids, hcap⟩
      have hmid := (parse_put hinner_text adds_file.1 adds_file.2).mpr ⟨hnext,
        [.member inner (ascii "ipcam") rest, .member before (ascii "print") after], ms, hrun,
        hinner_text, rfl⟩
      rw [← hassoc] at hmid
      refine ⟨_, (parse_put h hadds hquoted).mpr ⟨(keyNext_brace q _ _).mp hnext₂,
        [.member before (ascii "print") after],
        inner ++ (ascii "ipcam", .obj ([fileMember] ++ ms)) :: rest, hrun₂, hmid, rfl⟩, ?_⟩
      rw [hids]
      exact .print hfirst (gainsLacking_of_file hinner hcap)
  · rw [parse_ids_none h hchosen hescape]
    constructor
    · rintro ⟨v', hv', -⟩
      cases hv'
    · exact fun hall => absurd hall.1 hescape

/-! ## The condition -/

theorem lands_unchanged {m : Text} {v : Value} (hids : missedIds context m = [])
    (hcap : missedCapability m = .nothing) : Lands context m v ↔ Completes context v v := by
  rw [completes_self]
  constructor
  · exact fun h => ⟨h.ids.symm.trans hids, h.capability.symm.trans hcap⟩
  · rintro ⟨hlack, hlackcap⟩
    exact {
      ids := hids.trans hlack.symm
      capability := hcap.trans hlackcap.symm
      escapable := by simp [hids]
      print := by simp [hids, hcap]
      ipcam := by simp [hcap] }

/-- The `print` object that a brace opens. -/
theorem parse_print {p s : Text} {v : Value} {before : List Member}
    (h : parse (p ++ lbrace :: s) = some v)
    (hrun : run start (p ++ [lbrace]) =
      some ⟨[.obj [] [], .obj before (ascii "print")], .objStart⟩) :
    ∃ after ms, v = .obj (before ++ (ascii "print", .obj ms) :: after) := by
  obtain ⟨hs, ms, hhs, rfl⟩ := parse_brace h hrun
  obtain ⟨after, hs', rfl, hnil⟩ := frames_cons hhs
  rw [List.map_eq_nil_iff.mp hnil]
  exact ⟨after, ms, rfl⟩

/-- The `ipcam` object that a brace opens. -/
theorem parse_ipcam {p s : Text} {v : Value} {inner before : List Member}
    (h : parse (p ++ lbrace :: s) = some v)
    (hrun : run start (p ++ [lbrace]) = some ⟨[.obj [] [], .obj inner (ascii "ipcam"),
      .obj before (ascii "print")], .objStart⟩) :
    ∃ rest after ms, v = .obj (before ++ (ascii "print",
      .obj (inner ++ (ascii "ipcam", .obj ms) :: rest)) :: after) := by
  obtain ⟨hs, ms, hhs, rfl⟩ := parse_brace h hrun
  obtain ⟨rest, hs', rfl, hhs'⟩ := frames_cons hhs
  obtain ⟨after, hs'', rfl, hnil⟩ := frames_cons hhs'
  rw [List.map_eq_nil_iff.mp hnil]
  exact ⟨rest, after, ms, rfl⟩

theorem lands_front {m : Text} {v : Value} {b : Nat} (h : parse m = some v)
    (hb : printBrace m = some b) (hc : missedCapability m ≠ .file)
    (hne : missedIds context m ≠ [] ∨ missedCapability m = .ipcam) :
    Lands context m v ↔
    (∀ id ∈ missedIds context m, id.2.all isEscapable = true) ∧ KeyNext (m.drop (b + 1)) ∧
      ∃ before after ms, ascii "print" ∉ keys before ∧
        run start (m.take b ++ [lbrace]) =
          some ⟨[.obj [] [], .obj before (ascii "print")], .objStart⟩ ∧
        v = .obj (before ++ (ascii "print", .obj ms) :: after) ∧
        missedIds context m = lackingIds context ms ∧
        missedCapability m = lackingCapability ms := by
  obtain ⟨hcut, hlen⟩ := printBrace_cut hb
  rw [← take_cut hcut hlen]
  constructor
  · intro hl
    obtain ⟨b', hb', hnext, before, hfirst, hrun⟩ := hl.print hne
    cases hb.symm.trans hb'
    have hparse := h
    rw [hcut] at hparse
    obtain ⟨after, ms, rfl⟩ := parse_print hparse (by rw [← take_cut hcut hlen, hrun])
    have hids := hl.ids
    have hcap := hl.capability
    rw [printObject_first hfirst] at hids hcap
    exact ⟨hl.escapable, hnext, before, after, ms, hfirst, hrun, rfl, hids, hcap⟩
  · rintro ⟨hescape, hnext, before, after, ms, hfirst, hrun, rfl, hids, hcap⟩
    exact {
      ids := by rw [printObject_first hfirst, Option.elim_some, hids]
      capability := by rw [printObject_first hfirst, Option.elim_some, hcap]
      escapable := hescape
      print := fun _ => ⟨b, hb, hnext, before, hfirst, hrun⟩
      ipcam := fun hfile => absurd hfile hc }

theorem lands_file {m : Text} {v : Value} {b j : Nat} (h : parse m = some v)
    (hb : printBrace m = some b) (hj : ipcamBrace m = some j)
    (hcut' : m = m.take j ++ lbrace :: m.drop (j + 1)) (hlen' : (m.take j).length = j)
    (hc : missedCapability m = .file) :
    Lands context m v ↔
    (∀ id ∈ missedIds context m, id.2.all isEscapable = true) ∧ KeyNext (m.drop (j + 1)) ∧
      (missedIds context m ≠ [] → KeyNext (m.drop (b + 1))) ∧
      ∃ inner rest before after ms,
      ascii "ipcam" ∉ keys inner ∧ ascii "print" ∉ keys before ∧
      run start (m.take (j + 1)) = some ⟨[.obj [] [], .obj inner (ascii "ipcam"),
        .obj before (ascii "print")], .objStart⟩ ∧
      (missedIds context m ≠ [] → run start (m.take (b + 1)) =
        some ⟨[.obj [] [], .obj before (ascii "print")], .objStart⟩) ∧
      v = .obj (before ++ (ascii "print",
        .obj (inner ++ (ascii "ipcam", .obj ms) :: rest)) :: after) ∧
      missedIds context m = lackingIds context (inner ++ (ascii "ipcam", .obj ms) :: rest) ∧
      lackingCapability (inner ++ (ascii "ipcam", .obj ms) :: rest) = .file := by
  obtain ⟨hcut, hlen⟩ := printBrace_cut hb
  constructor
  · intro hl
    obtain ⟨j', hj', hnext, inner, before, hinner, hfirst, hrun⟩ := hl.ipcam hc
    cases hj.symm.trans hj'
    have hparse := h
    rw [hcut'] at hparse
    obtain ⟨rest, after, ms, rfl⟩ := parse_ipcam hparse (by rw [← take_cut hcut' hlen', hrun])
    have hids := hl.ids
    have hcap := hl.capability
    rw [printObject_first hfirst, Option.elim_some] at hids hcap
    have hprint : missedIds context m ≠ [] → KeyNext (m.drop (b + 1)) ∧ run start
        (m.take (b + 1)) = some ⟨[.obj [] [], .obj before (ascii "print")], .objStart⟩ := by
      intro hne
      obtain ⟨b', hb', hnext', before', hfirst', hrun'⟩ := hl.print (Or.inl hne)
      cases hb.symm.trans hb'
      have hparse' := h
      rw [hcut] at hparse'
      obtain ⟨after', ms', hv⟩ := parse_print hparse' (by rw [← take_cut hcut hlen, hrun'])
      rw [Value.obj.injEq] at hv
      obtain ⟨rfl, -⟩ := first_unique hfirst hfirst' hv
      exact ⟨hnext', hrun'⟩
    exact ⟨hl.escapable, hnext, fun hne => (hprint hne).1, inner, rest, before, after, ms, hinner,
      hfirst, hrun, fun hne => (hprint hne).2, rfl, hids, hcap.symm.trans hc⟩
  · rintro ⟨hescape, hnext, hnext', inner, rest, before, after, ms, hinner, hfirst, hrun, hrun',
      rfl, hids, hcap⟩
    exact {
      ids := by rw [printObject_first hfirst, Option.elim_some, hids]
      capability := by rw [printObject_first hfirst, Option.elim_some, hcap, hc]
      escapable := hescape
      print := fun hne => by
        have hne := hne.resolve_right (by simp [hc])
        exact ⟨b, hb, hnext' hne, before, hfirst, hrun' hne⟩
      ipcam := fun _ => ⟨j, hj, hnext, inner, before, hinner, hfirst, hrun⟩ }

/-- The rewriting of a message whose `ipcam` object gets its `file` member. -/
theorem completes_iff_lands_file {m q : Text} {v : Value} {b j : Nat} (h : parse m = some v)
    (hb : printBrace m = some b) (hc : missedCapability m = .file) (hj : ipcamBrace m = some j)
    (htake : m.take (j + 1) = m.take b ++ lbrace :: q ++ [lbrace])
    (hdrop : m.drop (b + 1) = q ++ lbrace :: m.drop (j + 1)) :
    (∃ v', parse (m.take b ++ lbrace :: (commaText ((missedIds context m).map idEntry) ++
      (q ++ lbrace :: (fileText ++ m.drop (j + 1))))) = some v' ∧ Completes context v v') ↔
    Lands context m v := by
  obtain ⟨hcut, hlen⟩ := printBrace_cut hb
  obtain ⟨-, j', -, hj', -, hcut', hlen'⟩ := ipcamBrace_of_file hc
  cases hj.symm.trans hj'
  rw [lands_file h hb hj hcut' hlen' hc]
  by_cases hne : missedIds context m = []
  · have hparse := h
    rw [hcut'] at hparse
    have hq : m.take j = m.take b ++ lbrace :: q := by
      rw [take_cut hcut' hlen'] at htake
      exact List.append_cancel_right htake
    have htext : m.take b ++ lbrace :: (commaText ((missedIds context m).map idEntry) ++
        (q ++ lbrace :: (fileText ++ m.drop (j + 1)))) =
        m.take j ++ lbrace :: (fileText ++ m.drop (j + 1)) := by
      rw [hne, hq]
      simp [commaText]
    rw [htext, completes_file_iff hparse, ← take_cut hcut' hlen', hne]
    constructor
    · rintro ⟨hnext, inner, rest, before, after, ms, hinner, hfirst, hrun, hv, hids, hcap⟩
      exact ⟨by simp, hnext, fun hnil => absurd rfl hnil, inner, rest, before, after, ms, hinner,
        hfirst, hrun, fun hnil => absurd rfl hnil, hv, hids.symm, hcap⟩
    · rintro ⟨-, hnext, -, inner, rest, before, after, ms, hinner, hfirst, hrun, -, hv, hids, hcap⟩
      exact ⟨hnext, inner, rest, before, after, ms, hinner, hfirst, hrun, hv, hids.symm, hcap⟩
  · have hparse := h
    rw [hcut, hdrop] at hparse
    rw [completes_both_iff hparse (someIds_missed m) hne, ← htake, ← take_cut hcut hlen, ← hdrop]
    simp only [ne_eq, hne, not_false_eq_true, true_implies]

/-- The rewriting completes a message exactly when it lands in the right places. -/
theorem completes_iff_lands (contexts : Contexts) (device_id : Text) {m : Text} {v : Value}
    (h : parse m = some v) :
    (∃ v', parse (rewrite_status_message contexts device_id m) = some v' ∧
      Completes (activeContext contexts device_id) v v') ↔
    Lands (activeContext contexts device_id) m v := by
  generalize hcontext : activeContext contexts device_id = context
  have hsame : rewrite_status_message contexts device_id m = m → missedIds context m = [] →
      missedCapability m = .nothing →
      ((∃ v', parse (rewrite_status_message contexts device_id m) = some v' ∧
        Completes context v v') ↔ Lands context m v) := by
    intro hm hids hcap
    rw [hm, h, lands_unchanged hids hcap]
    simp
  cases hb : printBrace m with
  | none =>
    have hm := rewrite_unplaced contexts device_id hb
    rw [hcontext] at hm
    exact hsame hm.1 hm.2.1 hm.2.2
  | some b =>
    obtain ⟨tail, htail, hrewrite⟩ := rewrite_tail contexts device_id hb
    obtain ⟨hcut, hlen⟩ := printBrace_cut hb
    have hparse := h
    rw [hcut] at hparse
    have hmissed : SomeIds context (missedIds context m) := someIds_missed m
    rw [hcontext, idText_eq] at hrewrite
    cases htail with
    | nothing hc =>
      by_cases hne : missedIds context m = []
      · apply hsame _ hne hc
        rw [hrewrite, hne]
        exact hcut.symm
      · have hfile : missedCapability m ≠ .file := by simp [hc]
        rw [lands_front h hb hfile (Or.inl hne),
          ← completes_front_iff hparse hmissed hfile (Or.inl hne), hrewrite, hc]
        simp only [capabilityEntries, List.append_nil]
    | ipcam hc =>
      have hfile : missedCapability m ≠ .file := by simp [hc]
      rw [lands_front h hb hfile (Or.inr hc),
        ← completes_front_iff hparse hmissed hfile (Or.inr hc), hrewrite, hc, ipcamText_eq]
      simp only [capabilityEntries, commaText_append, List.append_assoc]
    | file hc hj htake hdrop =>
      rw [hrewrite]
      exact completes_iff_lands_file h hb hc hj htake hdrop

/-- A JSON message is still a JSON message when it is rewritten, gains no duplicate key and has
what its `print` object lacked, and nothing else, exactly when the search for texts and braces
misses what the `print` object lacks and finds the opening braces of the objects it is after. -/
theorem a_rewritten_message_is_completed_where_the_search_lands (contexts : Contexts)
    (device_id : Text) {m : Text} {v : Value} (h : parse m = some v) :
    (∃ v', parse (rewrite_status_message contexts device_id m) = some v' ∧ Grows v v' ∧
      Completes (activeContext contexts device_id) v v') ↔
    Lands (activeContext contexts device_id) m v := by
  rw [← completes_iff_lands contexts device_id h]
  constructor
  · rintro ⟨v', hv', -, hcompletes⟩
    exact ⟨v', hv', hcompletes⟩
  · rintro ⟨v', hv', hcompletes⟩
    exact ⟨v', hv', hcompletes.grows, hcompletes⟩

/-- A store with one context, the same for every device. -/
def oneContext : Contexts := fun _ => some {
  project_id := ascii "project-1"
  profile_id := ascii "profile-1"
  subtask_id := ascii "subtask-1"
  task_id := ascii "task-1"
  active := true }

def runningMessage : Text := ascii "\x7b\"print\":\x7b\"gcode_state\":\"RUNNING\"\x7d\x7d"

theorem a_running_message_is_completed : ∃ v v', parse runningMessage = some v ∧
    parse (rewrite_status_message oneContext (ascii "printer-a") runningMessage) = some v' ∧
    Grows v v' ∧ Completes (activeContext oneContext (ascii "printer-a")) v v' := by
  have hparse : parse runningMessage = some (.obj [(ascii "print",
      .obj [(ascii "gcode_state", .str (ascii "RUNNING"))])]) := by rfl
  have hlands : Lands (activeContext oneContext (ascii "printer-a")) runningMessage
      (.obj [(ascii "print", .obj [(ascii "gcode_state", .str (ascii "RUNNING"))])]) := {
    ids := by decide +kernel
    capability := by decide +kernel
    escapable := by decide +kernel
    print := fun _ => ⟨9, by decide +kernel, by decide +kernel, [], by decide, by rfl⟩
    ipcam := fun h => absurd h (by decide +kernel) }
  obtain ⟨v', hv'⟩ := (a_rewritten_message_is_completed_where_the_search_lands oneContext
    (ascii "printer-a") hparse).mpr hlands
  exact ⟨_, v', hparse, hv'⟩

/-- The members that are put into an empty `print` object end with a comma before the closing
brace. -/
theorem an_empty_print_object_is_spoilt :
    parse (ascii "\x7b\"print\":\x7b\x7d\x7d") = some (.obj [(ascii "print", .obj [])]) ∧
    ¬ ∃ v', parse (rewrite_status_message (fun _ => none) (ascii "printer-a")
        (ascii "\x7b\"print\":\x7b\x7d\x7d")) = some v' ∧
      Grows (.obj [(ascii "print", .obj [])]) v' ∧
      Completes (activeContext (fun _ => none) (ascii "printer-a"))
        (.obj [(ascii "print", .obj [])]) v' := by
  refine ⟨rfl, ?_⟩
  rintro ⟨v', hv', -⟩
  have hnone : parse (rewrite_status_message (fun _ => none) (ascii "printer-a")
      (ascii "\x7b\"print\":\x7b\x7d\x7d")) = none := by rfl
  rw [hnone] at hv'
  cases hv'

end bambu_farm_client.local_print_context
