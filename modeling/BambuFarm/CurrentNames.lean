-- What a user sees of the names of printers. The texts have the names of now, and are from the
-- last announcements, when the calls that meet at one printer keep out of each other's way.
import BambuFarm.PrinterNames

open json runs tables
open bambu_farm_client.printer_metadata

namespace bambu_farm_client.printer_names

variable {φ : Type}

/-! ## Names that are current -/

/-- A rename of the printer is on its way to the stored text. -/
inductive Renaming (dev_id : Text) : Place φ → Prop
  | overridden : Renaming dev_id (.overridden dev_id)
  | read (last_json : Text) : Renaming dev_id (.read dev_id last_json)
  | updated (json : Text) : Renaming dev_id (.updated dev_id json)

/-- The call will store the text. -/
inductive Stores (json : Text) : Place φ → Prop
  | effective : Stores json (.effective json)
  | updated (dev_id : Text) : Stores json (.updated dev_id json)

/-- A text has the name of its printer, or a rename is on its way to it. -/
structure Current (s : Plugin φ) : Prop where
  stored : ∀ dev_id json, s.last_printer_json_by_id dev_id = some json →
    apply_name_override s.overrides json = json ∨ ∃ call, Renaming dev_id (s.calls call)
  stores : ∀ call json, Stores json (s.calls call) → apply_name_override s.overrides json = json

namespace Current

variable {s : Plugin φ} {call : Nat}

theorem goTo {place : Place φ} (h : Current s)
    (hplace : ∀ json, Stores json place → apply_name_override s.overrides json = json)
    (hrename : ∀ dev_id, Renaming dev_id (s.calls call) → Renaming dev_id place ∨
      ∀ json, s.last_printer_json_by_id dev_id = some json →
        apply_name_override s.overrides json = json) :
    Current (s.goTo call place) := by
  refine ⟨fun d t ht => ?_, fun c t ht => ?_⟩
  · rcases h.stored d t ht with hcurrent | ⟨c, hc⟩
    · exact .inl hcurrent
    · by_cases heq : c = call
      · rw [heq] at hc
        rcases hrename d hc with hplace | hcurrent
        · exact .inr ⟨call, by rwa [Plugin.goTo_self]⟩
        · exact .inl (hcurrent t ht)
      · exact .inr ⟨c, by rwa [Plugin.goTo_ne _ heq]⟩
  · by_cases heq : c = call
    · rw [heq, Plugin.goTo_self] at ht
      exact hplace t ht
    · rw [Plugin.goTo_ne _ heq] at ht
      exact h.stores c t ht

/-- A call goes on that has nothing to do with the names. -/
theorem goOn {place : Place φ} (h : Current s) (hplace : ∀ json, ¬ Stores json place)
    (hcall : ∀ dev_id, ¬ Renaming dev_id (s.calls call)) : Current (s.goTo call place) :=
  h.goTo (fun json hjson => absurd hjson (hplace json)) fun dev_id hrename =>
    absurd hrename (hcall dev_id)

theorem remember (dev_id : Text) {json : Text} (h : Current s)
    (hjson : apply_name_override s.overrides json = json) :
    Current (s.remember_printer_json dev_id json) := by
  by_cases hdev : dev_id = []
  · rwa [Plugin.remember_printer_json, if_pos hdev]
  · have hlast := s.remember_last hdev json
    rw [Plugin.remember_printer_json, if_neg hdev] at hlast ⊢
    refine ⟨fun d t ht => ?_, h.stores⟩
    rw [hlast] at ht
    split_ifs at ht with hd
    · cases ht
      exact .inl hjson
    · exact h.stored d t ht

/-- A text is handed out. -/
theorem hand {s' : Plugin φ} {place : Place φ} (h : Current s) (hs : Handed s s' call place) :
    Current s' := by
  have hdone : ∀ d, ¬ Renaming d (s.calls call) := by
    intro d hd
    have hbefore := hs.before
    generalize s.calls call = p at hd hbefore
    cases hd <;> exact hbefore
  refine ⟨fun d t ht => ?_, fun c t ht => ?_⟩
  · rw [hs.last] at ht
    rw [hs.overrides, hs.calls]
    refine (h.stored d t ht).imp_right fun ⟨c, hc⟩ => ⟨c, ?_⟩
    have hne : c ≠ call := by
      rintro rfl
      exact hdone d hc
    rwa [Function.update_of_ne hne]
  · rw [hs.overrides]
    rw [hs.calls] at ht
    by_cases heq : c = call
    · rw [heq, Function.update_self] at ht
      have hbehind := hs.behind
      cases ht <;> cases hbehind
    · rw [Function.update_of_ne heq] at ht
      exact h.stores c t ht

end Current

section current

variable {saved : Option Text} {es : List (Event φ)} {e : Event φ}

theorem current_rename (hes : Steps (Possible saved) es) {call : Nat} {dev_id dev_name : Text}
    (he : (pluginAfter saved es).calls call = .returned)
    (hunhurried : Unhurried saved es (.rename call dev_id dev_name))
    (h : Current (pluginAfter saved es)) :
    Current (stepEvent (pluginAfter saved es) (.rename call dev_id dev_name)) := by
  have hsound := sound_after hes
  have hother : ∀ c, c ≠ call → (stepEvent (pluginAfter saved es)
      (.rename call dev_id dev_name)).calls c = (pluginAfter saved es).calls c :=
    fun c hc => Plugin.goTo_ne _ hc _
  have hself : (stepEvent (pluginAfter saved es)
      (.rename call dev_id dev_name)).calls call = .overridden dev_id := Plugin.goTo_self ..
  refine ⟨fun d t ht => ?_, fun c t ht => ?_⟩
  · have hid := ((hsound.stored d t ht).2.replaceable hes).2
    by_cases hd : d = dev_id
    · exact .inr ⟨call, by rw [hself, hd]; exact .overridden⟩
    · rcases h.stored d t ht with hcurrent | ⟨c, hc⟩
      · exact .inl ((apply_set_name (hid.symm ▸ hd) _).trans hcurrent)
      · have hne : c ≠ call := by
          rintro rfl
          rw [he] at hc
          cases hc
        exact .inr ⟨c, by rwa [hother c hne]⟩
  · have hne : c ≠ call := by
      rintro rfl
      rw [hself] at ht
      cases ht
    rw [hother c hne] at ht
    have hcurrent := h.stores c t ht
    have hid : dev_id_of t ≠ dev_id := by
      generalize hplace : (pluginAfter saved es).calls c = place at ht
      cases ht with
      | effective => exact (hunhurried c t).1 hplace
      | updated d =>
        rintro rfl
        have hcarries := hsound.carried c d t (hplace ▸ .updated d t)
        refine (hunhurried c t).2 ?_
        rw [hplace, (hcarries.replaceable hes).2]
    exact (apply_set_name hid _).trans hcurrent

theorem current_step (hes : Steps (Possible saved) es) (he : Possible saved es e)
    (hunhurried : Unhurried saved es e) (h : Current (pluginAfter saved es)) :
    Current (stepEvent (pluginAfter saved es) e) := by
  have hsound := sound_after hes
  have hpossible := he
  unfold Possible at he
  cases e with
  | announce call json =>
    refine h.goTo (fun t ht => ?_) fun d hd => ?_
    · cases ht
      exact apply_again (replaceable_of_object he.2) _
    · rw [he.1] at hd
      cases hd
  | rename call dev_id dev_name => exact current_rename hes he hunhurried h
  | read call =>
    obtain ⟨dev_id, hplace⟩ := he
    simp only [stepEvent, hplace]
    unfold readPlace
    split_ifs with hempty
    · refine h.goTo (fun t ht => by cases ht) fun d hd => ?_
      rw [hplace] at hd
      cases hd
      right
      intro t ht
      rw [ht, Option.getD_some] at hempty
      obtain ⟨hdev, hversion⟩ := hsound.stored dev_id t ht
      have hid := (hversion.replaceable hes).2
      rw [hempty] at hid
      exact absurd hid.symm hdev
    · refine h.goTo (fun t ht => by cases ht) fun d hd => ?_
      rw [hplace] at hd
      cases hd
      exact .inl (.read _)
  | update call =>
    obtain ⟨dev_id, last_json, hplace⟩ := he
    have hlast := hsound.carried call dev_id last_json (hplace ▸ .read dev_id last_json)
    simp only [stepEvent, hplace]
    refine h.goTo (fun t ht => ?_) fun d hd => ?_
    · cases ht
      exact apply_again (hlast.replaceable hes).1 _
    · rw [hplace] at hd
      cases hd
      exact .inl (.updated _)
  | remember call =>
    rcases he with ⟨json, hplace⟩ | ⟨dev_id, json, hplace⟩
    · have hjson := h.stores call json (hplace ▸ .effective)
      simp only [stepEvent, hplace]
      obtain ⟨-, -, hcalls⟩ := (pluginAfter saved es).remember_frame (dev_id_of json) json
      have hstored := h.remember (dev_id_of json) hjson
      refine Current.goOn ⟨hstored.stored, hstored.stores⟩ (fun t ht => by cases ht) fun d hd => ?_
      rw [Plugin.note_announced, hcalls, hplace] at hd
      cases hd
    · have hjson := h.stores call json (hplace ▸ .updated dev_id)
      have hcarries := hsound.carried call dev_id json (hplace ▸ .updated dev_id json)
      simp only [stepEvent, hplace]
      obtain ⟨hnames, -, hcalls⟩ := (pluginAfter saved es).remember_frame dev_id json
      refine (h.remember dev_id hjson).goTo (fun t ht => ?_) fun d hd => .inr fun t ht => ?_
      · unfold updatedPlace at ht
        split_ifs at ht
        · cases ht
        · cases ht
      · rw [hcalls, hplace] at hd
        cases hd
        by_cases hdev : dev_id = []
        · rw [Plugin.remember_printer_json, if_pos hdev] at ht
          exact absurd hdev (hsound.stored dev_id t ht).1
        · rw [Plugin.remember_last _ hdev, if_pos rfl] at ht
          cases ht
          rwa [hnames]
  | dispatch | deliver | register | replay | refresh =>
    obtain ⟨call, place, hs⟩ := handed_step hpossible trivial
    exact h.hand hs

theorem current_after (h : Steps (Possible saved) es) (hunhurried : Steps (Unhurried saved) es) :
    Current (pluginAfter saved es) := by
  induction es using List.reverseRecOn with
  | nil =>
    refine ⟨fun d t ht => ?_, fun c t ht => ?_⟩
    · cases ht
    · cases ht
  | append_singleton es e ih =>
    rw [steps_snoc] at h hunhurried
    rw [pluginAfter_snoc]
    exact current_step h.1 h.2 hunhurried.2 (ih h.1 hunhurried.1)

end current

/-! ## Texts that are the latest -/

/-- The last announcement of the printer, under names that printers had at some time. -/
def Latest (saved : Option Text) (es : List (Event φ)) (announced : Text → Option Text)
    (dev_id json : Text) : Prop :=
  ∃ announcement, announced dev_id = some announcement ∧
    ∃ overrides, WereNames saved es overrides ∧ json = apply_name_override overrides announcement

/-- A rename has the text of the printer. -/
inductive Holds : Place φ → Text → Text → Prop
  | read (dev_id json : Text) : Holds (.read dev_id json) dev_id json
  | updated (dev_id json : Text) : Holds (.updated dev_id json) dev_id json

/-- What is stored, and what is to be stored for a printer, is from its last announcement. -/
structure UpToDate (saved : Option Text) (es : List (Event φ)) (s : Plugin φ) : Prop where
  announced : ∀ dev_id json, s.announced dev_id = some json → Version saved es dev_id json
  stored : ∀ dev_id json, s.last_printer_json_by_id dev_id = some json →
    Latest saved es s.announced dev_id json
  held : ∀ call dev_id json, Holds (s.calls call) dev_id json →
    Latest saved es s.announced dev_id json

namespace UpToDate

variable {saved : Option Text} {es : List (Event φ)} {s : Plugin φ} {call : Nat}

theorem snoc (e : Event φ) (h : UpToDate saved es s) : UpToDate saved (es ++ [e]) s := by
  have hlatest : ∀ d t, Latest saved es s.announced d t →
      Latest saved (es ++ [e]) s.announced d t := by
    rintro d t ⟨announcement, ha, m, hm, ht⟩
    exact ⟨announcement, ha, m, hm.snoc, ht⟩
  refine ⟨fun d t ht => (h.announced d t ht).snoc, fun d t ht => ?_, fun c d t ht => ?_⟩
  · exact hlatest d t (h.stored d t ht)
  · exact hlatest d t (h.held c d t ht)

theorem goTo {place : Place φ} (h : UpToDate saved es s)
    (hplace : ∀ d t, Holds place d t → Latest saved es s.announced d t) :
    UpToDate saved es (s.goTo call place) := by
  refine ⟨h.announced, h.stored, fun c d t ht => ?_⟩
  by_cases heq : c = call
  · rw [heq, Plugin.goTo_self] at ht
    exact hplace d t ht
  · rw [Plugin.goTo_ne _ heq] at ht
    exact h.held c d t ht

/-- A call goes on without a text that is to be stored. -/
theorem goOn {place : Place φ} (h : UpToDate saved es s) (hplace : ∀ d t, ¬ Holds place d t) :
    UpToDate saved es (s.goTo call place) :=
  h.goTo fun d t ht => absurd ht (hplace d t)

/-- A text is handed out. -/
theorem hand {s' : Plugin φ} {place : Place φ} (h : UpToDate saved es s)
    (hs : Handed s s' call place) : UpToDate saved es s' := by
  refine ⟨fun d t ht => ?_, fun d t ht => ?_, fun c d t ht => ?_⟩
  · rw [hs.announced] at ht
    exact h.announced d t ht
  · rw [hs.last] at ht
    rw [hs.announced]
    exact h.stored d t ht
  · rw [hs.announced]
    rw [hs.calls] at ht
    by_cases heq : c = call
    · rw [heq, Function.update_self] at ht
      have hbehind := hs.behind
      cases ht <;> cases hbehind
    · rw [Function.update_of_ne heq] at ht
      exact h.held c d t ht

end UpToDate

section latest

variable {saved : Option Text} {es : List (Event φ)} {e : Event φ} {dev_id json : Text}

/-- A version has the name that was put into it. -/
theorem Version.named (h : Steps (Possible saved) es) (hv : Version saved es dev_id json) :
    ∃ m, WereNames saved es m ∧ json = apply_name_override m json := by
  obtain ⟨call, announcement, hmem, -, m, hm, rfl⟩ := hv
  have hj := replaceable_of_object (object_of_announced h hmem)
  exact ⟨m, hm, (apply_again hj m).symm⟩

/-- The last announcement with another name is still the last announcement. -/
theorem UpToDate.apply (hes : Steps (Possible saved) es) {s : Plugin φ} (h : UpToDate saved es s)
    (hjson : Latest saved es s.announced dev_id json) {m : Overrides} (hm : WereNames saved es m) :
    Latest saved es s.announced dev_id (apply_name_override m json) := by
  obtain ⟨announcement, ha, m', hm', rfl⟩ := hjson
  have hj := ((h.announced dev_id announcement ha).replaceable hes).1
  rcases apply_apply hj m' m with happly | happly
  · exact ⟨announcement, ha, m, hm, happly⟩
  · exact ⟨announcement, ha, m', hm', happly⟩

/-- An announcement is stored while no rename has a text of its printer. -/
theorem upToDate_announced (hes : Steps (Possible saved) es) {s : Plugin φ}
    (hversion : Version saved es (dev_id_of json) json)
    (hstored : ∀ d t, s.last_printer_json_by_id d = some t → d ≠ [])
    (hapart : ∀ call t, ¬ Holds (s.calls call) (dev_id_of json) t) (h : UpToDate saved es s) :
    UpToDate saved es
      ((s.remember_printer_json (dev_id_of json) json).note_announced (dev_id_of json) json) := by
  obtain ⟨-, hannounced, hcalls⟩ := s.remember_frame (dev_id_of json) json
  have hother : ∀ {d t}, d ≠ dev_id_of json → Latest saved es s.announced d t →
      Latest saved es (Function.update s.announced (dev_id_of json) (some json)) d t := by
    rintro d t hd ⟨announcement, ha, hm⟩
    exact ⟨announcement, by rwa [Function.update_of_ne hd], hm⟩
  refine ⟨fun d t ht => ?_, fun d t ht => ?_, fun c d t ht => ?_⟩
  · rw [Plugin.note_announced, hannounced] at ht
    dsimp only at ht
    by_cases hd : d = dev_id_of json
    · rw [hd, Function.update_self] at ht
      cases ht
      rwa [hd]
    · rw [Function.update_of_ne hd] at ht
      exact h.announced d t ht
  · change (s.remember_printer_json (dev_id_of json) json).last_printer_json_by_id d = _ at ht
    rw [Plugin.note_announced, hannounced]
    by_cases hd : d = dev_id_of json
    · have hdev : dev_id_of json ≠ [] := by
        intro hempty
        rw [hempty, Plugin.remember_printer_json, if_pos rfl] at ht
        exact hstored d t ht (hd.trans hempty)
      rw [s.remember_last hdev, if_pos hd] at ht
      cases ht
      obtain ⟨m, hm, hnamed⟩ := hversion.named hes
      exact ⟨json, by rw [hd]; exact Function.update_self .., m, hm, hnamed⟩
    · refine hother hd (h.stored d t ?_)
      by_cases hdev : dev_id_of json = []
      · rwa [hdev, Plugin.remember_printer_json, if_pos rfl] at ht
      · rwa [s.remember_last hdev, if_neg hd] at ht
  · rw [Plugin.note_announced, hcalls] at ht
    rw [Plugin.note_announced, hannounced]
    have hd : d ≠ dev_id_of json := by
      rintro rfl
      exact hapart c t ht
    exact hother hd (h.held c d t ht)

theorem upToDate_remember {s : Plugin φ} (h : UpToDate saved es s)
    (hjson : Latest saved es s.announced dev_id json) :
    UpToDate saved es (s.remember_printer_json dev_id json) := by
  by_cases hdev : dev_id = []
  · rwa [Plugin.remember_printer_json, if_pos hdev]
  · have hlast := s.remember_last hdev json
    rw [Plugin.remember_printer_json, if_neg hdev] at hlast ⊢
    refine ⟨h.announced, fun d t ht => ?_, h.held⟩
    rw [hlast] at ht
    split_ifs at ht with hd
    · cases ht
      exact hd ▸ hjson
    · exact h.stored d t ht

theorem upToDate_step (hes : Steps (Possible saved) es) (he : Possible saved es e)
    (hapart : Apart saved es e) (h : UpToDate saved es (pluginAfter saved es)) :
    UpToDate saved es (stepEvent (pluginAfter saved es) e) := by
  have hsound := sound_after hes
  have hpossible := he
  unfold Possible at he
  cases e with
  | announce call json => exact h.goOn fun d t ht => by cases ht
  | rename call dev_id dev_name =>
    have hnamed : UpToDate saved es { pluginAfter saved es with
        overrides := set_name (pluginAfter saved es).overrides dev_id dev_name } :=
      ⟨h.announced, h.stored, h.held⟩
    exact hnamed.goOn fun d t ht => by cases ht
  | read call =>
    obtain ⟨dev_id, hplace⟩ := he
    simp only [stepEvent, hplace]
    refine h.goTo fun d t ht => ?_
    unfold readPlace at ht
    split_ifs at ht with hempty
    · cases ht
    · cases ht
      cases hlast : (pluginAfter saved es).last_printer_json_by_id dev_id with
      | none => exact absurd (by rw [hlast]; rfl) hempty
      | some json => exact h.stored dev_id json hlast
  | update call =>
    obtain ⟨dev_id, last_json, hplace⟩ := he
    have hlast := h.held call dev_id last_json (hplace ▸ .read dev_id last_json)
    simp only [stepEvent, hplace]
    refine h.goTo fun d t ht => ?_
    cases ht
    exact h.apply hes hlast (wereNames_now saved es)
  | remember call =>
    rcases he with ⟨json, hplace⟩ | ⟨dev_id, json, hplace⟩
    · have hversion := hsound.carried call _ json (hplace ▸ Carries.effective json)
      simp only [stepEvent, hplace]
      refine (upToDate_announced hes hversion (fun d t ht => (hsound.stored d t ht).1)
        (fun c t ht => ?_) h).goOn fun d t ht => by cases ht
      obtain ⟨hread, hupdated⟩ := hapart json hplace c t
      generalize (pluginAfter saved es).calls c = place at ht hread hupdated
      generalize hdev : dev_id_of json = dev_id at ht hread hupdated
      cases ht with
      | read => exact hread rfl
      | updated => exact hupdated rfl
    · have hjson := h.held call dev_id json (hplace ▸ .updated dev_id json)
      simp only [stepEvent, hplace]
      refine (upToDate_remember h hjson).goOn fun d t ht => ?_
      unfold updatedPlace at ht
      split_ifs at ht
      · cases ht
      · cases ht
  | dispatch | deliver | register | replay | refresh =>
    obtain ⟨call, place, hs⟩ := handed_step hpossible trivial
    exact h.hand hs

theorem upToDate_after (h : Steps (Possible saved) es) (hapart : Steps (Apart saved) es) :
    UpToDate saved es (pluginAfter saved es) := by
  induction es using List.reverseRecOn with
  | nil =>
    refine ⟨fun d t ht => ?_, fun d t ht => ?_, fun c d t ht => ?_⟩
    · cases ht
    · cases ht
    · cases ht
  | append_singleton es e ih =>
    rw [steps_snoc] at h hapart
    rw [pluginAfter_snoc]
    exact (upToDate_step h.1 h.2 hapart.2 (ih h.1 hapart.1)).snoc e

end latest

/-! ## The texts of a run -/

/-- A printer is announced, and gets a name. -/
def renamedRun : List (Event Unit) :=
  [.register 0 (some ()) [], .refresh 0, .announce 1 (announcement (ascii "A1")), .remember 1,
    .dispatch 1, .deliver 1, .rename 2 (ascii "A1") (ascii "x"), .read 2, .update 2, .remember 2,
    .dispatch 2, .deliver 2]

theorem isObject_announcement : IsObject (announcement (ascii "A1")) := by
  refine ⟨[(ascii "dev_name", .str []), (ascii "dev_id", .str (ascii "A1"))], rfl, fun k hk => ?_⟩
  cases hk with
  | here h =>
    simp only [List.mem_cons, Prod.mk.injEq, List.not_mem_nil, or_false] at h
    rcases h with ⟨rfl, -⟩ | ⟨rfl, -⟩
    · decide
    · decide
  | member hm h =>
    simp only [List.mem_cons, Prod.mk.injEq, List.not_mem_nil, or_false] at hm
    rcases hm with ⟨-, rfl⟩ | ⟨-, rfl⟩
    · cases h
    · cases h

theorem possible_renamedRun : Steps (Possible none) renamedRun := by
  refine (steps_snoc _ [_, _, _, _, _, _, _, _, _, _, _] _).mpr ⟨?_, _, _, rfl⟩
  refine (steps_snoc _ [_, _, _, _, _, _, _, _, _, _] _).mpr ⟨?_, _, rfl⟩
  refine (steps_snoc _ [_, _, _, _, _, _, _, _, _] _).mpr ⟨?_, .inr ⟨_, _, rfl⟩⟩
  refine (steps_snoc _ [_, _, _, _, _, _, _, _] _).mpr ⟨?_, _, _, rfl⟩
  refine (steps_snoc _ [_, _, _, _, _, _, _] _).mpr ⟨?_, _, rfl⟩
  refine (steps_snoc _ [_, _, _, _, _, _] _).mpr ⟨?_, rfl⟩
  refine (steps_snoc _ [_, _, _, _, _] _).mpr ⟨?_, _, _, rfl⟩
  refine (steps_snoc _ [_, _, _, _] _).mpr ⟨?_, _, rfl⟩
  refine (steps_snoc _ [_, _, _] _).mpr ⟨?_, .inl ⟨_, rfl⟩⟩
  refine (steps_snoc _ [_, _] _).mpr ⟨?_, rfl, isObject_announcement⟩
  refine (steps_snoc _ [_] _).mpr ⟨?_, _, rfl⟩
  exact (steps_snoc _ [] _).mpr ⟨steps_nil _, rfl, Lists.nil⟩

end bambu_farm_client.printer_names
