-- Edits of a JSON text. The machine works in the frame on top of its stack
-- and never looks at what a frame holds, so a value around a place of the text
-- can be told from what comes before the place, and members that are put in
-- behind an opening brace are the first members of that object.
import BambuFarm.Json

namespace json

/-! ## Runs on top of open frames -/

/-- The state of an inner run, put on top of the open frames `fs`. -/
def State.under (σ : State) (fs : List Frame) : State :=
  match σ with
  | ⟨_, .done v⟩ => complete fs v
  | ⟨gs, mode⟩ => ⟨gs ++ fs, mode⟩

theorem State.under_of_not_done {σ : State} (h : ∀ v, σ.mode ≠ .done v) (fs : List Frame) :
    σ.under fs = ⟨σ.stack ++ fs, σ.mode⟩ := by
  obtain ⟨gs, mode⟩ := σ
  cases mode with
  | done v => exact absurd rfl (h v)
  | _ => rfl

theorem complete_under (gs fs : List Frame) (v : Value) :
    complete (gs ++ fs) v = (complete gs v).under fs := by
  match gs with
  | [] => rfl
  | .arr es :: gs => rfl
  | .obj ms k :: gs => rfl

theorem startValue_under (gs fs : List Frame) (c : UInt8) :
    startValue (gs ++ fs) c = (startValue gs c).map (·.under fs) := by
  unfold startValue
  split_ifs <;> try rfl
  cases NumState.start c <;> rfl

theorem startValue_mode {fs : List Frame} {c : UInt8} {σ : State}
    (h : startValue fs c = some σ) : ∀ v, σ.mode ≠ .done v := by
  intro v hv
  unfold startValue at h
  split_ifs at h
  all_goals first
    | (cases h; cases hv)
    | (obtain ⟨s, -, rfl⟩ := Option.map_eq_some_iff.mp h; cases hv)

theorem afterValue_under (g : Frame) (gs fs : List Frame) (c : UInt8) :
    afterValue (g :: gs ++ fs) c = (afterValue (g :: gs) c).map (·.under fs) := by
  cases g with
  | arr es =>
    simp only [afterValue, List.cons_append]
    split_ifs
    · rfl
    · rfl
    · simp [complete_under]
    · rfl
  | obj ms k =>
    simp only [afterValue, List.cons_append]
    split_ifs
    · rfl
    · rfl
    · simp [complete_under]
    · rfl

theorem settle_complete_under (g : Frame) (gs fs : List Frame) (v : Value) (c : UInt8) :
    settle (complete (g :: gs ++ fs) v) c = (settle (complete (g :: gs) v) c).map (·.under fs) := by
  cases g with
  | arr es => exact afterValue_under _ _ _ _
  | obj ms k => exact afterValue_under _ _ _ _

theorem endString_under (g : Frame) (gs fs : List Frame) (isKey : Bool) (s : Text) :
    endString (g :: gs ++ fs) isKey s = (endString (g :: gs) isKey s).map (·.under fs) := by
  cases g with
  | arr es =>
    unfold endString
    split_ifs
    · rfl
    · simp [complete, State.under]
  | obj ms k =>
    unfold endString
    split_ifs
    · rfl
    · simp [complete, State.under]

theorem step_under (g : Frame) (gs fs : List Frame) (mode : Mode) (h : ∀ v, mode ≠ .done v)
    (c : UInt8) :
    step ⟨g :: gs ++ fs, mode⟩ c = (step ⟨g :: gs, mode⟩ c).map (·.under fs) := by
  cases mode with
  | value =>
    simp only [step]
    split_ifs
    · rfl
    · exact startValue_under (g :: gs) fs c
  | arrStart =>
    cases g with
    | arr es =>
      simp only [step, List.cons_append]
      split_ifs
      · rfl
      · simp [complete_under]
      · exact startValue_under (.arr es :: gs) fs c
    | obj ms k =>
      simp only [step, List.cons_append]
      split_ifs <;> rfl
  | objStart =>
    cases g with
    | arr es =>
      simp only [step, List.cons_append]
      split_ifs <;> rfl
    | obj ms k =>
      simp only [step, List.cons_append]
      split_ifs
      · rfl
      · simp [complete_under]
      · rfl
      · rfl
  | key => simp only [step]; split_ifs <;> rfl
  | colon => simp only [step]; split_ifs <;> rfl
  | after => exact afterValue_under g gs fs c
  | str isKey ps =>
    simp only [step]
    split_ifs
    · exact endString_under g gs fs isKey _
    · rfl
    · rfl
    · rfl
  | esc isKey ps =>
    simp only [step]
    split_ifs
    · rfl
    · cases shortEscape c <;> rfl
  | hex isKey ps digits code =>
    simp only [step]
    cases hexDigit c with
    | none => rfl
    | some d =>
      simp only [Option.map_some]
      split_ifs <;> rfl
  | num literal s =>
    simp only [step]
    cases s.next c with
    | some s' => rfl
    | none =>
      simp only
      split_ifs
      · exact settle_complete_under g gs fs _ c
      · rfl
  | word w read =>
    simp only [step]
    split_ifs
    · simp only [Option.map_some, complete_under]
    · rfl
    · rfl
  | done v => exact absurd rfl (h v)

/-! ## Frames that differ in what they held first -/

/-- A frame for each index, all of them alike but for the first part of what they hold. -/
inductive Family (ι : Type)
  | arr (first : ι → List Value) (rest : List Value)
  | obj (first : ι → List Member) (rest : List Member) (key : Text)

namespace Family

variable {ι : Type}

def frame (F : Family ι) (i : ι) : Frame :=
  match F with
  | .arr first rest => .arr (first i ++ rest)
  | .obj first rest key => .obj (first i ++ rest) key

/-- The value of the frame when it closes. -/
def value (F : Family ι) (i : ι) : Value :=
  match F with
  | .arr first rest => .arr (first i ++ rest)
  | .obj first rest _ => .obj (first i ++ rest)

def push (F : Family ι) (v : Value) : Family ι :=
  match F with
  | .arr first rest => .arr first (rest ++ [v])
  | .obj first rest key => .obj first (rest ++ [(key, v)]) []

/-- The second family holds more of the same. -/
inductive Extends : Family ι → Family ι → Prop
  | arr (first rest more) : Extends (.arr first rest) (.arr first (rest ++ more))
  | obj (first rest more key key') : Extends (.obj first rest key) (.obj first (rest ++ more) key')

theorem Extends.refl (F : Family ι) : F.Extends F := by
  cases F with
  | arr first rest => simpa using Extends.arr first rest []
  | obj first rest key => simpa using Extends.obj first rest [] key key

theorem Extends.trans {F G H : Family ι} (h : F.Extends G) (h' : G.Extends H) : F.Extends H := by
  cases h with
  | arr first rest more =>
    cases h' with
    | arr _ _ more' => simpa using Extends.arr first rest (more ++ more')
  | obj first rest more key key' =>
    cases h' with
    | obj _ _ more' _ key'' => simpa using Extends.obj first rest (more ++ more') key key''

theorem extends_push (F : Family ι) (v : Value) : F.Extends (F.push v) := by
  cases F with
  | arr first rest => exact .arr first rest [v]
  | obj first rest key => exact .obj first rest [(key, v)] key []

theorem complete_frame (F : Family ι) (i : ι) (v : Value) :
    complete [F.frame i] v = ⟨[(F.push v).frame i], .after⟩ := by
  cases F <;> simp [frame, push, complete]

/-- One step of the machine in the frame of a family: it goes on in the same way at every
index, or closes the frame at every index, or fails at every index. -/
inductive Step (F : Family ι) (mode : Mode) (c : UInt8) : Prop
  | inside (gs : List Frame) (G : Family ι) (mode' : Mode) (hG : F.Extends G)
      (hm : ∀ v, mode' ≠ .done v)
      (h : ∀ i, step ⟨[F.frame i], mode⟩ c = some ⟨gs ++ [G.frame i], mode'⟩)
  | closed (G : Family ι) (hG : F.Extends G)
      (h : ∀ i, step ⟨[F.frame i], mode⟩ c = some ⟨[], .done (G.value i)⟩)
  | failed (h : ∀ i, step ⟨[F.frame i], mode⟩ c = none)

/-- The step stays in the frame as it is. -/
theorem Step.stay {F : Family ι} {mode : Mode} {c : UInt8} (gs : List Frame) (mode' : Mode)
    (hm : ∀ v, mode' ≠ .done v)
    (h : ∀ i, step ⟨[F.frame i], mode⟩ c = some ⟨gs ++ [F.frame i], mode'⟩) : Step F mode c :=
  .inside gs F mode' (.refl F) hm h

theorem Step.push {F : Family ι} {mode : Mode} {c : UInt8} (v : Value)
    (h : ∀ i, step ⟨[F.frame i], mode⟩ c = some (complete [F.frame i] v)) : Step F mode c :=
  .inside [] (F.push v) .after (extends_push F v) (by simp) fun i => by
    rw [h i, complete_frame]
    rfl

theorem step_after (F : Family ι) (c : UInt8) : Step F .after c := by
  by_cases hs : isSpace c = true
  · exact .stay [] .after (by simp) fun i => by simp [step, afterValue, hs]
  by_cases hc : c = comma
  · subst hc
    cases F with
    | arr first rest =>
      exact .stay [] .value (by simp) fun i => by simp [step, afterValue, frame, isSpace]
    | obj first rest key =>
      exact .stay [] .key (by simp) fun i => by simp [step, afterValue, frame, isSpace]
  cases F with
  | arr first rest =>
    by_cases hr : c = rbracket
    · exact .closed _ (.refl _) fun i => by
        simp [step, afterValue, frame, isSpace, hr, complete, value]
    · exact .failed fun i => by simp_all [step, afterValue, frame]
  | obj first rest key =>
    by_cases hr : c = rbrace
    · exact .closed _ (.refl _) fun i => by
        simp [step, afterValue, frame, isSpace, hr, complete, value]
    · exact .failed fun i => by simp_all [step, afterValue, frame]

theorem step_startValue {F : Family ι} {mode : Mode} {c : UInt8}
    (h : ∀ i, step ⟨[F.frame i], mode⟩ c = startValue [F.frame i] c) : Step F mode c := by
  cases hs : startValue [] c with
  | none =>
    exact .failed fun i => by
      rw [h i, ← List.nil_append [F.frame i], startValue_under, hs]
      rfl
  | some σ =>
    refine .stay σ.stack σ.mode (startValue_mode hs) fun i => ?_
    rw [h i, ← List.nil_append [F.frame i], startValue_under, hs, Option.map_some,
      State.under_of_not_done (startValue_mode hs), List.nil_append]

theorem step_family (F : Family ι) {mode : Mode} (hm : ∀ v, mode ≠ .done v) (c : UInt8) :
    Step F mode c := by
  cases mode with
  | value =>
    by_cases hs : isSpace c = true
    · exact .stay [] .value (by simp) fun i => by simp [step, hs]
    · exact step_startValue fun i => by simp [step, hs]
  | arrStart =>
    by_cases hs : isSpace c = true
    · exact .stay [] .arrStart (by simp) fun i => by simp [step, hs]
    · cases F with
      | arr first rest =>
        by_cases hr : c = rbracket
        · exact .closed _ (.refl _) fun i => by simp_all [step, frame, complete, value]
        · exact step_startValue fun i => by simp_all [step, frame]
      | obj first rest key => exact .failed fun i => by simp [step, frame, hs]
  | objStart =>
    by_cases hs : isSpace c = true
    · exact .stay [] .objStart (by simp) fun i => by simp [step, hs]
    · cases F with
      | arr first rest => exact .failed fun i => by simp [step, frame, hs]
      | obj first rest key =>
        by_cases hr : c = rbrace
        · exact .closed _ (.refl _) fun i => by simp_all [step, frame, complete, value]
        · by_cases hq : c = quote
          · exact .stay [] (.str true []) (by simp) fun i => by simp_all [step, frame]
          · exact .failed fun i => by simp_all [step, frame]
  | key =>
    by_cases hs : isSpace c = true
    · exact .stay [] .key (by simp) fun i => by simp [step, hs]
    · by_cases hq : c = quote
      · exact .stay [] (.str true []) (by simp) fun i => by simp_all [step]
      · exact .failed fun i => by simp_all [step]
  | colon =>
    by_cases hs : isSpace c = true
    · exact .stay [] .colon (by simp) fun i => by simp [step, hs]
    · by_cases hq : c = colon
      · exact .stay [] .value (by simp) fun i => by simp_all [step]
      · exact .failed fun i => by simp_all [step]
  | after => exact step_after F c
  | str isKey ps =>
    by_cases hq : c = quote
    · cases isKey with
      | false => exact .push (.str (decode ps)) fun i => by simp [step, hq, endString]
      | true =>
        cases F with
        | arr first rest => exact .failed fun i => by simp [step, hq, endString, frame]
        | obj first rest key =>
          refine .inside [] (.obj first rest (decode ps)) .colon ?_ (by simp) fun i => by
            simp [step, hq, endString, frame]
          simpa using Extends.obj first rest [] key (decode ps)
    · by_cases hb : c = backslash
      · exact .stay [] (.esc isKey ps) (by simp) fun i => by simp [step, hb]
      · by_cases hl : c < 0x20
        · exact .failed fun i => by simp only [step, hq, hb, hl, if_true, if_false]
        · exact .stay [] (.str isKey (ps ++ [.byte c])) (by simp) fun i => by
            simp only [step, hq, hb, hl, if_false, List.nil_append]
  | esc isKey ps =>
    by_cases hu : c = 0x75
    · exact .stay [] (.hex isKey ps 0 0) (by simp) fun i => by simp [step, hu]
    · cases he : shortEscape c with
      | none => exact .failed fun i => by simp [step, hu, he]
      | some b =>
        exact .stay [] (.str isKey (ps ++ [.byte b])) (by simp) fun i => by simp [step, hu, he]
  | hex isKey ps digits code =>
    cases hd : hexDigit c with
    | none => exact .failed fun i => by simp [step, hd]
    | some d =>
      by_cases h3 : digits = 3
      · exact .stay [] (.str isKey (ps ++ [.code (code * 16 + d)])) (by simp) fun i => by
          simp [step, hd, h3]
      · exact .stay [] (.hex isKey ps (digits + 1) (code * 16 + d)) (by simp) fun i => by
          simp [step, hd, h3]
  | num literal s =>
    cases hn : s.next c with
    | some s' => exact .stay [] (.num (literal ++ [c]) s') (by simp) fun i => by simp [step, hn]
    | none =>
      by_cases ha : s.accepts = true
      · have hstep : ∀ i, step ⟨[F.frame i], .num literal s⟩ c =
            step ⟨[(F.push (.num literal)).frame i], .after⟩ c := fun i => by
          simp only [step, hn, ha, if_true, complete_frame, settle]
        have hF := extends_push F (.num literal)
        cases step_after (F.push (.num literal)) c with
        | inside gs G mode' hG hm h =>
          exact .inside gs G mode' (hF.trans hG) hm fun i => (hstep i).trans (h i)
        | closed G hG h => exact .closed G (hF.trans hG) fun i => (hstep i).trans (h i)
        | failed h => exact .failed fun i => (hstep i).trans (h i)
      · exact .failed fun i => by simp [step, hn, ha]
  | word w read =>
    by_cases hc : w.letters[read]? = some c
    · by_cases hr : read + 1 = w.letters.length
      · exact .push w.value fun i => by simp [step, hc, hr]
      · exact .stay [] (.word w (read + 1)) (by simp) fun i => by simp [step, hc, hr]
    · exact .failed fun i => by simp [step, hc]
  | done v => exact absurd rfl (hm v)

end Family

/-! ## Runs in an open frame -/

theorem run_done {v : Value} {b : Text} {σ : State} (h : run ⟨[], .done v⟩ b = some σ) :
    b.all isSpace = true ∧ σ = ⟨[], .done v⟩ := by
  induction b with
  | nil => exact ⟨rfl, (Option.some.inj h).symm⟩
  | cons c b ih =>
    by_cases hs : isSpace c = true
    · simp only [run, step, hs, if_true, Option.bind_some] at h
      simpa [hs] using ih h
    · simp [run, step, hs] at h

theorem step_complete_space (fs : List Frame) (v : Value) {c : UInt8} (h : isSpace c = true) :
    step (complete fs v) c = some (complete fs v) := by
  match fs with
  | [] => simp [complete, step, h]
  | .arr es :: fs => simp [complete, step, afterValue, h]
  | .obj ms k :: fs => simp [complete, step, afterValue, h]

/-- Spaces after a value change nothing. -/
theorem run_complete_spaces (fs : List Frame) (v : Value) {b : Text}
    (h : b.all isSpace = true) : run (complete fs v) b = some (complete fs v) := by
  induction b with
  | nil => rfl
  | cons c b ih =>
    simp only [List.all_cons, Bool.and_eq_true] at h
    rw [run, step_complete_space fs v h.1]
    exact ih h.2

/-- The family of one frame. -/
def Family.const : Frame → Family Unit
  | .arr es => .arr (fun _ => es) []
  | .obj ms k => .obj (fun _ => ms) [] k

theorem Family.const_frame (f : Frame) : (Family.const f).frame () = f := by
  cases f <;> simp [Family.const, Family.frame]

theorem complete_inside (fs : List Frame) (v : Value) :
    fs = [] ∨ (complete fs v).stack ≠ [] ∧ ∀ w, (complete fs v).mode ≠ .done w := by
  match fs with
  | [] => exact Or.inl rfl
  | .arr es :: fs => exact Or.inr (by simp [complete])
  | .obj ms k :: fs => exact Or.inr (by simp [complete])

/-- A step in an open frame stays in an open frame, or closes the last one. -/
theorem step_inside {g : Frame} {gs : List Frame} {mode : Mode} (hm : ∀ v, mode ≠ .done v)
    {c : UInt8} {τ : State} (h : step ⟨g :: gs, mode⟩ c = some τ) :
    (∃ v, τ = ⟨[], .done v⟩) ∨ τ.stack ≠ [] ∧ ∀ v, τ.mode ≠ .done v := by
  have hu := step_under g [] gs mode hm c
  rw [List.singleton_append, h, ← Family.const_frame g] at hu
  cases Family.step_family (Family.const g) hm c with
  | inside gs' G mode' hG hm' hstep =>
    rw [hstep, Option.map_some, State.under_of_not_done hm'] at hu
    cases hu
    exact Or.inr ⟨by simp, hm'⟩
  | closed G hG hstep =>
    rw [hstep, Option.map_some] at hu
    cases hu
    rcases complete_inside gs (G.value ()) with rfl | hin
    · exact Or.inl ⟨_, rfl⟩
    · exact Or.inr hin
  | failed hstep =>
    rw [hstep] at hu
    cases hu

/-- An inner run that ends with a value gives this value to the frame below. -/
theorem run_under {g : Frame} {gs : List Frame} {mode : Mode} (hm : ∀ v, mode ≠ .done v)
    {b : Text} {v : Value} (h : run ⟨g :: gs, mode⟩ b = some ⟨[], .done v⟩) (fs : List Frame) :
    run ⟨g :: gs ++ fs, mode⟩ b = some (complete fs v) := by
  induction b generalizing g gs mode with
  | nil => cases h
  | cons c b ih =>
    obtain ⟨τ, hτ, hrun⟩ := Option.bind_eq_some_iff.mp h
    rw [run, step_under g gs fs mode hm, hτ, Option.map_some, Option.bind_some]
    rcases step_inside hm hτ with ⟨w, rfl⟩ | ⟨hs, hm'⟩
    · obtain ⟨hsp, hw⟩ := run_done hrun
      cases hw
      exact run_complete_spaces fs v hsp
    · rw [State.under_of_not_done hm']
      obtain ⟨stack, mode'⟩ := τ
      obtain ⟨g', gs', rfl⟩ := List.exists_cons_of_ne_nil hs
      exact ih hm' hrun

/-- A run that gets out of an open frame ends an inner run with a value. -/
theorem run_closes {g : Frame} {gs fs : List Frame} {mode : Mode} (hm : ∀ v, mode ≠ .done v)
    {b : Text} {w : Value} (h : (run ⟨g :: gs ++ fs, mode⟩ b).bind finish = some w) :
    ∃ b₁ b₂ v, b = b₁ ++ b₂ ∧ run ⟨g :: gs, mode⟩ b₁ = some ⟨[], .done v⟩ ∧
      (run (complete fs v) b₂).bind finish = some w := by
  induction b generalizing g gs mode with
  | nil =>
    simp only [run, Option.bind_some] at h
    cases mode <;> cases h
  | cons c b ih =>
    rw [run, step_under g gs fs mode hm] at h
    cases hτ : step ⟨g :: gs, mode⟩ c with
    | none =>
      rw [hτ] at h
      cases h
    | some τ =>
      rw [hτ, Option.map_some, Option.bind_some] at h
      rcases step_inside hm hτ with ⟨v, rfl⟩ | ⟨hs, hm'⟩
      · exact ⟨[c], b, v, rfl, by simp [run, hτ], h⟩
      · rw [State.under_of_not_done hm'] at h
        obtain ⟨stack, mode'⟩ := τ
        obtain ⟨g', gs', rfl⟩ := List.exists_cons_of_ne_nil hs
        obtain ⟨b₁, b₂, v, rfl, hrun, hrest⟩ := ih hm' h
        exact ⟨c :: b₁, b₂, v, rfl, by simpa [run, hτ] using hrun, hrest⟩

/-- A run that closes the frame of a family closes it in the same way at every index. -/
theorem run_family {ι : Type} {F : Family ι} {gs : List Frame} {mode : Mode}
    (hm : ∀ v, mode ≠ .done v) {b : Text} {i : ι} {v : Value}
    (h : run ⟨gs ++ [F.frame i], mode⟩ b = some ⟨[], .done v⟩) :
    ∃ G : Family ι, F.Extends G ∧
      ∀ j, run ⟨gs ++ [F.frame j], mode⟩ b = some ⟨[], .done (G.value j)⟩ := by
  induction b generalizing F gs mode with
  | nil =>
    cases gs <;> cases h
  | cons c b ih =>
    obtain ⟨τ, hτ, hrun⟩ := Option.bind_eq_some_iff.mp h
    cases gs with
    | nil =>
      simp only [List.nil_append] at hτ ⊢
      cases Family.step_family F hm c with
      | inside gs' G mode' hG hm' hstep =>
        rw [hstep i, Option.some.injEq] at hτ
        subst hτ
        obtain ⟨H, hH, hall⟩ := ih hm' hrun
        exact ⟨H, hG.trans hH, fun j => by rw [run, hstep j, Option.bind_some, hall j]⟩
      | closed G hG hstep =>
        rw [hstep i, Option.some.injEq] at hτ
        subst hτ
        obtain ⟨hsp, -⟩ := run_done hrun
        exact ⟨G, hG, fun j => by
          rw [run, hstep j, Option.bind_some]
          exact run_complete_spaces [] (G.value j) hsp⟩
      | failed hstep =>
        rw [hstep i] at hτ
        cases hτ
    | cons g gs =>
      have hstep : ∀ j, step ⟨g :: gs ++ [F.frame j], mode⟩ c =
          (step ⟨g :: gs, mode⟩ c).map (·.under [F.frame j]) :=
        fun j => step_under g gs [F.frame j] mode hm c
      rw [hstep i] at hτ
      obtain ⟨ρ, hρ, rfl⟩ := Option.map_eq_some_iff.mp hτ
      rcases step_inside hm hρ with ⟨w, rfl⟩ | ⟨hs, hm'⟩
      · have hdone : ∀ j, State.under ⟨[], .done w⟩ [F.frame j] =
            ⟨[] ++ [(F.push w).frame j], .after⟩ := fun j => F.complete_frame j w
        rw [hdone i] at hrun
        obtain ⟨H, hH, hall⟩ := ih (by simp) hrun
        exact ⟨H, (F.extends_push w).trans hH, fun j => by
          rw [run, hstep j, hρ, Option.map_some, Option.bind_some, hdone j, hall j]⟩
      · rw [State.under_of_not_done hm'] at hrun
        obtain ⟨H, hH, hall⟩ := ih hm' hrun
        exact ⟨H, hH, fun j => by
          rw [run, hstep j, hρ, Option.map_some, Option.bind_some, State.under_of_not_done hm',
            hall j]⟩

theorem run_family_top {ι : Type} {F : Family ι} {mode : Mode} (hm : ∀ v, mode ≠ .done v)
    {b : Text} {i : ι} {v : Value} (h : run ⟨[F.frame i], mode⟩ b = some ⟨[], .done v⟩) :
    ∃ G : Family ι, F.Extends G ∧
      ∀ j, run ⟨[F.frame j], mode⟩ b = some ⟨[], .done (G.value j)⟩ := by
  rw [← List.nil_append [F.frame i]] at h
  exact run_family hm h

/-! ## The value around a place of the text -/

/-- An array or an object around one of its values. -/
inductive Hole
  | elem (before after : List Value)
  | member (before : List Member) (key : Text) (after : List Member)

namespace Hole

def fill : Hole → Value → Value
  | .elem before after, v => .arr (before ++ v :: after)
  | .member before key after, v => .obj (before ++ (key, v) :: after)

/-- The frame in which the machine reads the value. -/
def frame : Hole → Frame
  | .elem before _ => .arr before
  | .member before key _ => .obj before key

end Hole

/-- The whole value around a value, the innermost hole first. -/
def plug (hs : List Hole) (v : Value) : Value := hs.foldl (fun v h => h.fill v) v

@[simp] theorem plug_nil (v : Value) : plug [] v = v := rfl

@[simp] theorem plug_cons (h : Hole) (hs : List Hole) (v : Value) :
    plug (h :: hs) v = plug hs (h.fill v) := rfl

theorem frames_cons {hs : List Hole} {before : List Member} {k : Text} {fs : List Frame}
    (h : hs.map Hole.frame = .obj before k :: fs) :
    ∃ after hs', hs = .member before k after :: hs' ∧ hs'.map Hole.frame = fs := by
  cases hs with
  | nil => cases h
  | cons hole hs =>
    cases hole with
    | elem => cases h
    | member before' k' after =>
      cases h
      exact ⟨after, hs, rfl, rfl⟩

theorem fill_injective {h h' : Hole} {v v' : Value} (hf : h.frame = h'.frame)
    (hv : h.fill v = h'.fill v') : h = h' ∧ v = v' := by
  cases h <;> cases h' <;> simp_all [Hole.frame, Hole.fill]

/-- A value around a place falls apart in one way only, when it is known what comes before
the place. -/
theorem plug_injective {hs hs' : List Hole} {v v' : Value}
    (hf : hs.map Hole.frame = hs'.map Hole.frame) (hv : plug hs v = plug hs' v') :
    hs = hs' ∧ v = v' := by
  induction hs generalizing hs' v v' with
  | nil =>
    cases hs' with
    | nil => exact ⟨rfl, hv⟩
    | cons h' hs' => simp at hf
  | cons h hs ih =>
    cases hs' with
    | nil => simp at hf
    | cons h' hs' =>
      simp only [List.map_cons, List.cons.injEq] at hf
      obtain ⟨rfl, hfill⟩ := ih hf.2 hv
      obtain ⟨rfl, rfl⟩ := fill_injective hf.1 hfill
      exact ⟨rfl, rfl⟩

/-- A frame with each value as its next one. -/
def Family.filled : Frame → Family Value
  | .arr es => .arr (fun v => es ++ [v]) []
  | .obj ms k => .obj (fun v => ms ++ [(k, v)]) [] []

theorem complete_filled (f : Frame) (fs : List Frame) (v : Value) :
    complete (f :: fs) v = ⟨(Family.filled f).frame v :: fs, .after⟩ := by
  cases f <;> simp [complete, Family.filled, Family.frame]

theorem filled_extends {f : Frame} {G : Family Value} (h : (Family.filled f).Extends G) :
    ∃ hole : Hole, hole.frame = f ∧ ∀ v, G.value v = hole.fill v := by
  cases f with
  | arr es =>
    rcases h with ⟨_, _, more⟩ | _
    exact ⟨.elem es more, rfl, fun v => by simp [Family.value, Hole.fill]⟩
  | obj ms k =>
    rcases h with _ | ⟨_, _, more⟩
    exact ⟨.member ms k more, rfl, fun v => by simp [Family.value, Hole.fill]⟩

/-- What follows a value does not depend on the value. -/
theorem eval_complete {fs : List Frame} {b : Text} {v w : Value}
    (h : eval (complete fs v) b = some w) :
    ∃ hs : List Hole, hs.map Hole.frame = fs ∧
      ∀ v', eval (complete fs v') b = some (plug hs v') := by
  induction fs generalizing b v w with
  | nil =>
    refine ⟨[], rfl, fun v' => ?_⟩
    obtain ⟨σ, hσ, -⟩ := Option.bind_eq_some_iff.mp h
    rw [eval, run_complete_spaces [] v' (run_done hσ).1]
    rfl
  | cons f fs ih =>
    rw [complete_filled, ← List.singleton_append] at h
    obtain ⟨b₁, b₂, v₁, rfl, hrun, hrest⟩ := run_closes (by simp) h
    obtain ⟨G, hG, hall⟩ := run_family_top (by simp) hrun
    obtain ⟨hole, hframe, hfill⟩ := filled_extends hG
    obtain ⟨hs, hhs, hplug⟩ := ih hrest
    refine ⟨hole :: hs, by simp [hframe, hhs], fun v' => ?_⟩
    rw [complete_filled, ← List.singleton_append, eval_append,
      run_under (by simp) (hall v') fs, Option.bind_some, hfill v', hplug, plug_cons]

/-- A member that is read stands in the object, behind those before it. -/
theorem eval_complete_member {fs : List Frame} {ms : List Member} {k b : Text} {v w : Value}
    (h : eval (complete (.obj ms k :: fs) v) b = some w) :
    ∃ after hs, hs.map Hole.frame = fs ∧ w = plug hs (.obj (ms ++ (k, v) :: after)) := by
  obtain ⟨hs, hframes, hplug⟩ := eval_complete h
  obtain ⟨after, hs', rfl, hfs⟩ := frames_cons hframes
  have hw := hplug v
  rw [h, Option.some.injEq] at hw
  exact ⟨after, hs', hfs, hw⟩

theorem open_extends {G : Family (List Member)}
    (h : (Family.obj id [] [] : Family (List Member)).Extends G) :
    ∃ ms, ∀ Y, G.value Y = .obj (Y ++ ms) := by
  rcases h with _ | ⟨_, _, more⟩
  exact ⟨more, fun Y => by simp [Family.value]⟩

/-- A text from the opening brace of an object on: the object, and the value around it.
The object can be given any members to start with. -/
theorem eval_object {fs : List Frame} {X : List Member} {b : Text} {w : Value}
    (h : eval ⟨.obj X [] :: fs, .objStart⟩ b = some w) :
    ∃ hs ms, hs.map Hole.frame = fs ∧
      ∀ Y, eval ⟨.obj Y [] :: fs, .objStart⟩ b = some (plug hs (.obj (Y ++ ms))) := by
  have hF : ∀ Y, (Family.obj id [] [] : Family (List Member)).frame Y = .obj Y [] :=
    fun Y => by simp [Family.frame]
  rw [← List.singleton_append] at h
  obtain ⟨b₁, b₂, v, rfl, hrun, hrest⟩ := run_closes (by simp) h
  rw [← hF X] at hrun
  obtain ⟨G, hG, hall⟩ := run_family_top (by simp) hrun
  obtain ⟨ms, hms⟩ := open_extends hG
  obtain ⟨hs, hhs, hplug⟩ := eval_complete hrest
  refine ⟨hs, ms, hhs, fun Y => ?_⟩
  rw [← hF Y, ← List.singleton_append, eval_append, run_under (by simp) (hall Y) fs,
    Option.bind_some, hms, hplug]

/-! ## Members put in behind an opening brace -/

/-- The text spells out members, each with a comma behind it. -/
def Adds (t : Text) (added : List Member) : Prop :=
  run ⟨[.obj [] []], .objStart⟩ t = some ⟨[.obj added []], .key⟩

/-- A key comes next. -/
def KeyNext (b : Text) : Prop := (b.dropWhile isSpace).head? = some quote

instance (b : Text) : Decidable (KeyNext b) := inferInstanceAs (Decidable (_ = _))

theorem run_inside {g : Frame} {gs : List Frame} {mode : Mode} (hm : ∀ v, mode ≠ .done v)
    {b : Text} {τ : State} (h : run ⟨g :: gs, mode⟩ b = some τ) (hτ : ∀ v, τ.mode ≠ .done v)
    (fs : List Frame) : run ⟨g :: gs ++ fs, mode⟩ b = some ⟨τ.stack ++ fs, τ.mode⟩ := by
  induction b generalizing g gs mode with
  | nil =>
    cases h
    rfl
  | cons c b ih =>
    obtain ⟨ρ, hρ, hrun⟩ := Option.bind_eq_some_iff.mp h
    rw [run, step_under g gs fs mode hm, hρ, Option.map_some, Option.bind_some]
    rcases step_inside hm hρ with ⟨w, rfl⟩ | ⟨hs, hm'⟩
    · exact absurd (congrArg State.mode (run_done hrun).2) (hτ w)
    · rw [State.under_of_not_done hm']
      obtain ⟨stack, mode'⟩ := ρ
      obtain ⟨g', gs', rfl⟩ := List.exists_cons_of_ne_nil hs
      exact ih hm' hrun

/-- Where a key has to come, nothing but a key can come. -/
theorem eval_key (ms : List Member) (fs : List Frame) (b : Text) :
    eval ⟨.obj ms [] :: fs, .key⟩ b =
      if KeyNext b then eval ⟨.obj ms [] :: fs, .objStart⟩ b else none := by
  induction b with
  | nil => rfl
  | cons c b ih =>
    by_cases hs : isSpace c = true
    · have hnext : KeyNext (c :: b) ↔ KeyNext b := by simp [KeyNext, hs]
      simp only [hnext]
      simpa [eval, run, step, hs] using ih
    · have hnext : KeyNext (c :: b) ↔ c = quote := by simp [KeyNext, hs]
      simp only [hnext]
      by_cases hq : c = quote
      · subst hq
        simp [eval, run, step, isSpace]
      · rw [if_neg hq]
        simp only [eval, run, step, hs, hq, if_false, Bool.false_eq_true, Option.bind_none]

/-- Members put in behind the opening brace of an object are the first members of that
object. The text is a JSON text then exactly when it was one before and the object is not
empty. -/
theorem eval_adds {t : Text} {added : List Member} (ht : Adds t added) (fs : List Frame)
    (b : Text) (w : Value) :
    eval ⟨.obj [] [] :: fs, .objStart⟩ (t ++ b) = some w ↔
      KeyNext b ∧ ∃ hs ms, hs.map Hole.frame = fs ∧
        eval ⟨.obj [] [] :: fs, .objStart⟩ b = some (plug hs (.obj ms)) ∧
        w = plug hs (.obj (added ++ ms)) := by
  have hrun : run ⟨.obj [] [] :: fs, .objStart⟩ t = some ⟨.obj added [] :: fs, .key⟩ :=
    run_inside (by simp) ht (by simp) fs
  rw [eval_append, hrun, Option.bind_some, eval_key]
  constructor
  · intro h
    split_ifs at h with hk
    obtain ⟨hs, ms, hhs, hall⟩ := eval_object h
    refine ⟨hk, hs, ms, hhs, by simpa using hall [], ?_⟩
    rw [hall added, Option.some.injEq] at h
    exact h.symm
  · rintro ⟨hk, hs, ms, hhs, hb, rfl⟩
    rw [if_pos hk]
    obtain ⟨hs', ms', hhs', hall⟩ := eval_object hb
    have hsame := (hall []).symm.trans hb
    rw [List.nil_append, Option.some.injEq] at hsame
    obtain ⟨rfl, hv⟩ := plug_injective (hhs'.trans hhs.symm) hsame
    cases hv
    exact hall added

/-! ## Braces -/

/-- An opening brace opens an object, or is a character of a string. -/
theorem step_lbrace {σ τ : State} (h : step σ lbrace = some τ) :
    τ = ⟨.obj [] [] :: σ.stack, .objStart⟩ ∨ ∃ isKey ps, τ = ⟨σ.stack, .str isKey ps⟩ := by
  obtain ⟨fs, mode⟩ := σ
  cases mode with
  | value =>
    simp [step, isSpace, startValue] at h
    exact Or.inl h.symm
  | arrStart =>
    match fs with
    | .arr es :: fs =>
      simp [step, isSpace, startValue] at h
      exact Or.inl h.symm
    | [] => simp [step, isSpace] at h
    | .obj ms k :: fs => simp [step, isSpace] at h
  | objStart =>
    match fs with
    | .arr es :: fs => simp [step, isSpace] at h
    | [] => simp [step, isSpace] at h
    | .obj ms k :: fs => simp [step, isSpace] at h
  | key => simp [step, isSpace] at h
  | colon => simp [step, isSpace] at h
  | after =>
    match fs with
    | .arr es :: fs => simp [step, isSpace, afterValue] at h
    | [] => simp [step, isSpace, afterValue] at h
    | .obj ms k :: fs => simp [step, isSpace, afterValue] at h
  | str isKey ps =>
    simp [step] at h
    exact Or.inr ⟨_, _, h.symm⟩
  | esc isKey ps => simp [step, shortEscape] at h
  | hex isKey ps digits code => simp [step, hexDigit] at h
  | num literal s =>
    have hn : s.next lbrace = none := by cases s <;> decide
    have hs : settle (complete fs (.num literal)) lbrace = none := by
      match fs with
      | [] => rfl
      | .arr es :: fs => rfl
      | .obj ms k :: fs => rfl
    simp only [step, hn, hs, ite_self, reduceCtorEq] at h
  | word w read =>
    have hw : w.letters[read]? ≠ some lbrace := by
      intro hr
      have hmem := List.mem_of_getElem? hr
      revert hmem
      cases w <;> decide
    simp only [step, hw, if_false, reduceCtorEq] at h
  | done v => simp [step, isSpace] at h

end json
