-- A name override replaces one value of the text and nothing else. The searches for the
-- keys of the name and the id land on members of the text, and no key can start in the
-- new value, whatever the name is.
import BambuFarm.JsonKeys
import BambuFarm.PrinterMetadata

open json search
open bambu_farm_client.print_job

namespace bambu_farm_client.printer_metadata

/-! ## What a rename has to do -/

/-- The range of the name is replaced by the name of the device, and it stays so. -/
structure Renamed (overrides : Overrides) (j r name : Text) (value_start value_end : Nat) : Prop where
  override : overrides (json_string_field j (ascii "dev_id")) = some name
  not_empty : name ≠ []
  range : find_json_string_value_range j (ascii "dev_name") = some (value_start, value_end)
  text : r = j.take value_start ++ json_escape name ++ j.drop value_end
  dev_name : json_string_field r (ascii "dev_name") = json_escape name
  dev_id : json_string_field r (ascii "dev_id") = json_string_field j (ascii "dev_id")
  again : apply_name_override overrides r = r

/-- There is no name for the device of the text, or no place for it. -/
def Unnamed (overrides : Overrides) (j : Text) : Prop :=
  shown overrides (json_string_field j (ascii "dev_id")) = none ∨
    find_json_string_value_range j (ascii "dev_name") = none

theorem apply_unnamed {overrides : Overrides} {j : Text} (h : Unnamed overrides j) :
    apply_name_override overrides j = j := by
  rw [apply_eq]
  rcases h with hname | hrange
  · rw [hname]
  · rw [hrange]
    cases shown overrides (json_string_field j (ascii "dev_id")) <;> rfl

/-! ## The first member with a key -/

/-- The key is found in the text, and the value of its member ends at its own quote. -/
structure FirstMember (key j front value rest : Text) : Prop where
  text : j = front ++ (needle key ++ (value ++ quote :: rest))
  first : Misses (needle key) front (needle key ++ (value ++ quote :: rest))
  escaped : Escaped value
  behind : Behind rest

namespace FirstMember

variable {key j front value rest : Text} (h : FirstMember key j front value rest)

include h

theorem range_eq : find_json_string_value_range j key =
    some (front.length + (needle key).length,
      front.length + (needle key).length + value.length) := by
  rw [h.text]
  exact range_of_find (scanned_of_escaped h.escaped) h.first.found

theorem field_eq : json_string_field j key = value := by
  rw [h.text]
  exact field_of_find (scanned_of_escaped h.escaped) h.first.found

/-- The text with another value in place of the one that was found. -/
theorem replace_eq (value' : Text) :
    j.take (front.length + (needle key).length) ++ value' ++
        j.drop (front.length + (needle key).length + value.length) =
      front ++ (needle key ++ (value' ++ quote :: rest)) := by
  have htake : j.take (front.length + (needle key).length) = front ++ needle key := by
    rw [h.text, ← List.append_assoc, ← List.length_append, List.take_left]
  have hdrop : j.drop (front.length + (needle key).length + value.length) = quote :: rest := by
    rw [h.text, ← List.append_assoc, ← List.append_assoc, ← List.length_append,
      ← List.length_append, List.drop_left]
  rw [htake, hdrop, List.append_assoc, List.append_assoc]

/-- The search for the key does not depend on the value. -/
theorem replaced {value' : Text} (he : Escaped value') :
    FirstMember key (front ++ (needle key ++ (value' ++ quote :: rest))) front value' rest where
  text := rfl
  first := h.first.congr (Nat.le_succ _) _
  escaped := he
  behind := h.behind

end FirstMember

/-- In a JSON text a key that is found is the key of a member. -/
theorem firstMember_of_range {key j : Text} {v : Value} (hkey : key.all isKeyByte = true)
    (hne : key ≠ []) (hj : parse j = some v) (hkeys : ∀ k, HasKey k v → quote ∉ k)
    (h : find_json_string_value_range j key ≠ none) :
    ∃ front value rest, FirstMember key j front value rest := by
  have hfind : ∃ key_pos, find j (needle key) 0 = some key_pos := by
    cases hfind : find j (needle key) 0 with
    | none =>
      refine absurd ?_ h
      unfold find_json_string_value_range
      unfold needle at hfind
      simp only [hfind]
    | some key_pos => exact ⟨key_pos, rfl⟩
  obtain ⟨key_pos, hfind⟩ := hfind
  obtain ⟨-, ⟨t, ht⟩, -⟩ := find_some hfind
  have hmisses := misses_of_find hfind
  have htext : j = j.take key_pos ++ (needle key ++ t) := by rw [ht, List.take_append_drop]
  rw [htext, needle_eq, List.append_assoc] at hj
  obtain ⟨value, rest, rfl, he, hr⟩ := spaced_value hkey hne hj hkeys
  rw [← ht] at hmisses
  exact ⟨j.take key_pos, value, rest, htext, hmisses, he, hr⟩

theorem field_ne_nil {key j : Text} (h : json_string_field j key ≠ []) :
    find_json_string_value_range j key ≠ none := by
  intro hnone
  refine h ?_
  unfold json_string_field
  rw [hnone]

/-! ## The other member -/

/-- The member of a key, as a whole. -/
def memberOf (key value : Text) : Text := needle key ++ (value ++ [quote])

theorem memberOf_eq (key value : Text) : memberOf key value =
    quote :: (key ++ ([quote, colon, 0x20] ++ (quote :: value ++ [quote]))) := by
  simp only [memberOf, needle_eq, keyPattern, List.append_assoc, List.cons_append, List.nil_append]

theorem memberOf_append (key value rest : Text) :
    memberOf key value ++ rest = needle key ++ (value ++ quote :: rest) := by
  simp only [memberOf, List.append_assoc, List.cons_append, List.nil_append]

theorem misses_memberOf {key k value rest : Text} (hkey : key.all isKeyByte = true) (hne : key ≠ [])
    (hk : k.all isKeyByte = true) (hdiff : key ≠ k) (he : Escaped value) (hr : Behind rest) :
    Misses (needle key) (memberOf k value) rest := by
  have hquote : quote ∉ k := fun hmem => (key_not_special hk hmem).1 rfl
  rw [memberOf_eq, needle_eq]
  exact (misses_other_member hkey hne hquote hdiff he hr).mono (List.prefix_append _ _)

namespace FirstMember

variable {key j front value rest : Text}

theorem text_eq (h : FirstMember key j front value rest) :
    j = front ++ (memberOf key value ++ rest) := by
  rw [memberOf_append]
  exact h.text

variable {k kFront kValue kRest : Text}

/-- The key of a member that comes later is found behind the replaced value. -/
theorem later {between new : Text} (hkey : key.all isKeyByte = true)
    (hk : k.all isKeyByte = true) (hne : k ≠ []) (hdiff : k ≠ key)
    (hlen : (needle k).length ≤ (needle key).length + 1)
    (h : FirstMember key j front value rest) (h' : FirstMember k j (front ++ between) kValue kRest)
    (hnew : Escaped new)
    (hbetween : memberOf key value ++ rest = between ++ (needle k ++ (kValue ++ quote :: kRest))) :
    ∃ kFront, FirstMember k (front ++ (needle key ++ (new ++ quote :: rest))) kFront kValue
      kRest := by
  have hmember := misses_memberOf hk hne hkey hdiff h.escaped h.behind
  obtain ⟨mid, rfl, hrest⟩ := hmember.split hbetween
  obtain ⟨hfront, hmid⟩ := misses_append.mp h'.first
  obtain ⟨-, hmid⟩ := misses_append.mp hmid
  have hfront' : Misses (needle k) front (memberOf key new ++ rest) := by
    rw [← hbetween, memberOf_append] at hfront
    rw [memberOf_append]
    exact hfront.congr hlen _
  refine ⟨front ++ (memberOf key new ++ mid), ?_, ?_, h'.escaped, h'.behind⟩
  · rw [← memberOf_append key, hrest, List.append_assoc, List.append_assoc]
  · rw [misses_append, misses_append, List.append_assoc, ← hrest]
    exact ⟨hfront', misses_memberOf hk hne hkey hdiff hnew h.behind, hmid⟩

/-- The key of a member that comes before is found where it was. -/
theorem earlier {between : Text} (new : Text) (hkey : key.all isKeyByte = true) (hne : key ≠ [])
    (hk : k.all isKeyByte = true) (hdiff : key ≠ k)
    (h' : FirstMember k j kFront kValue kRest)
    (hbetween : memberOf k kValue ++ kRest =
      between ++ (needle key ++ (value ++ quote :: rest))) :
    ∃ kRest', FirstMember k (kFront ++ between ++ (needle key ++ (new ++ quote :: rest))) kFront
      kValue kRest' := by
  have hmember := misses_memberOf hkey hne hk hdiff h'.escaped h'.behind
  obtain ⟨mid, rfl, rfl⟩ := hmember.split hbetween
  refine ⟨mid ++ (needle key ++ (new ++ quote :: rest)), ?_, ?_, h'.escaped, fun c hc => ?_⟩
  · rw [← memberOf_append k, List.append_assoc, List.append_assoc]
  · exact h'.first.congr (Nat.le_succ _) _
  · refine h'.behind c ?_
    rw [← hc, needle_eq, keyPattern]
    cases mid <;> rfl

/-- A key is found again with its value when the value of another key is replaced. -/
theorem other {new : Text} (hkey : key.all isKeyByte = true) (hne : key ≠ [])
    (hk : k.all isKeyByte = true) (hne' : k ≠ []) (hdiff : k ≠ key)
    (hlen : (needle k).length ≤ (needle key).length + 1)
    (h : FirstMember key j front value rest) (h' : FirstMember k j kFront kValue kRest)
    (hnew : Escaped new) : ∃ front' rest',
      FirstMember k (front ++ (needle key ++ (new ++ quote :: rest))) front' kValue rest' := by
  have heq := h.text_eq.symm.trans h'.text_eq
  rw [List.append_eq_append_iff] at heq
  rcases heq with ⟨between, rfl, hbetween⟩ | ⟨between, rfl, hbetween⟩
  · rw [memberOf_append k] at hbetween
    obtain ⟨kFront, hfound⟩ := later hkey hk hne' hdiff hlen h h' hnew hbetween
    exact ⟨kFront, kRest, hfound⟩
  · rw [memberOf_append key] at hbetween
    obtain ⟨kRest', hfound⟩ := earlier new hkey hne hk (Ne.symm hdiff) h' hbetween
    exact ⟨kFront, kRest', hfound⟩

end FirstMember

/-! ## A rename -/

theorem escaped_json_escape (value : Text) : Escaped (json_escape value) := by
  induction value with
  | nil => exact .nil
  | cons c value ih =>
    rw [json_escape, List.flatMap_cons]
    refine escaped_append ?_ ih
    unfold escapeByte
    split_ifs with hb hq
    · exact .escape .nil
    · exact .escape .nil
    · exact .escape .nil
    · exact .escape .nil
    · exact .escape .nil
    · exact .plain hq hb .nil

/-- The name is put into the range of `dev_name`, the id of the device stays, and a second rename
changes nothing. -/
theorem renamed_of_shown {overrides : Overrides} {j : Text} {v : Value} (hj : parse j = some v)
    (hkeys : ∀ k, HasKey k v → quote ∉ k) {name : Text}
    (hname : shown overrides (json_string_field j (ascii "dev_id")) = some name)
    (hrange : find_json_string_value_range j (ascii "dev_name") ≠ none) :
    ∃ value_start value_end,
      Renamed overrides j (apply_name_override overrides j) name value_start value_end := by
  obtain ⟨hdev, hoverride, hempty⟩ := shown_eq_some.mp hname
  obtain ⟨front, value, rest, hfirst⟩ :=
    firstMember_of_range (by decide) (by decide) hj hkeys hrange
  obtain ⟨idFront, idValue, idRest, hid⟩ :=
    firstMember_of_range (by decide) (by decide) hj hkeys (field_ne_nil hdev)
  have hnew := escaped_json_escape name
  have hreplaced := hfirst.replaced hnew
  obtain ⟨idFront', idRest', hid'⟩ := FirstMember.other (by decide) (by decide) (by decide)
    (by decide) (by decide) (by decide) hfirst hid hnew
  have hr : apply_name_override overrides j =
      front ++ (needle (ascii "dev_name") ++ (json_escape name ++ quote :: rest)) := by
    rw [apply_eq, hname, hfirst.range_eq]
    exact hfirst.replace_eq (json_escape name)
  have hsame := hid'.field_eq.trans hid.field_eq.symm
  refine ⟨_, _, hoverride, hempty, hfirst.range_eq, ?_, ?_, ?_, ?_⟩
  · rw [hr, hfirst.replace_eq]
  · rw [hr]
    exact hreplaced.field_eq
  · rw [hr]
    exact hsame
  · rw [hr, apply_eq, hsame, hname, hreplaced.range_eq]
    exact hreplaced.replace_eq (json_escape name)

/-- An override leaves the text as it is, or replaces the name of the device and nothing else. -/
theorem name_override_rewrites_one_value (overrides : Overrides) {j : Text} {ms : List Member}
    (hj : parse j = some (.obj ms))
    (hkeys : ∀ k, HasKey k (.obj ms) → quote ∉ k ∧ backslash ∉ k) :
    (Unnamed overrides j ∧ apply_name_override overrides j = j) ∨
      ∃ name value_start value_end,
        Renamed overrides j (apply_name_override overrides j) name value_start value_end := by
  by_cases h : Unnamed overrides j
  · exact .inl ⟨h, apply_unnamed h⟩
  · rw [Unnamed, not_or] at h
    obtain ⟨name, hname⟩ := Option.ne_none_iff_exists'.mp h.1
    exact .inr ⟨name, renamed_of_shown hj (fun k hk => (hkeys k hk).1) hname h.2⟩

/-- A name that looks like another member. -/
def craftyNames : Overrides := fun _ => some (ascii "bench\", \"dev_id\": \"B2")

theorem a_crafty_name_is_put_in : ∃ name value_start value_end,
    Renamed craftyNames (announcement (ascii "A1"))
      (apply_name_override craftyNames (announcement (ascii "A1"))) name value_start value_end := by
  have hparse : parse (announcement (ascii "A1")) =
      some (.obj [(ascii "dev_name", .str []), (ascii "dev_id", .str (ascii "A1"))]) := rfl
  have hkeys : ∀ k, HasKey k (.obj [(ascii "dev_name", .str []),
      (ascii "dev_id", .str (ascii "A1"))]) → quote ∉ k ∧ backslash ∉ k := by
    intro k hk
    cases hk with
    | here h =>
      simp only [List.mem_cons, Prod.mk.injEq, List.not_mem_nil, or_false] at h
      rcases h with ⟨rfl, -⟩ | ⟨rfl, -⟩
      · decide
      · decide
    | member hm h =>
      simp only [List.mem_cons, Prod.mk.injEq, List.not_mem_nil, or_false] at hm
      rcases hm with ⟨-, rfl⟩ | ⟨-, rfl⟩
      · cases h
      · cases h
  have hnamed : ¬ Unnamed craftyNames (announcement (ascii "A1")) := by
    unfold Unnamed
    decide +kernel
  exact (name_override_rewrites_one_value craftyNames hparse hkeys).resolve_left
    fun h => hnamed h.1

end bambu_farm_client.printer_metadata
