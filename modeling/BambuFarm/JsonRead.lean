-- What the machine reads where a value has to come: a text that is JSON on its own
-- has the same value inside another text, and a string that is read tells what its
-- text was, and how long it was.
import BambuFarm.JsonEdit
import BambuFarm.JsonText

namespace json

/-! ## A text inside another text -/

theorem settle_complete_space (fs : List Frame) (v : Value) {c : UInt8} (h : isSpace c = true) :
    settle (complete fs v) c = some (complete fs v) := by
  match fs with
  | [] => simp [complete, settle, h]
  | .arr es :: fs => simp [complete, settle, afterValue, h]
  | .obj ms k :: fs => simp [complete, settle, afterValue, h]

/-- A step with nothing open can be taken on top of any frames. -/
theorem step_bottom {mode : Mode} {c : UInt8} {τ : State} (h : step ⟨[], mode⟩ c = some τ)
    (hm : ∀ v, mode ≠ .done v) (fs : List Frame) : step ⟨fs, mode⟩ c = some (τ.under fs) := by
  cases mode with
  | value =>
    simp only [step] at h ⊢
    split_ifs at h ⊢
    · cases h
      rfl
    · have := startValue_under [] fs c
      rw [List.nil_append, h] at this
      exact this
  | arrStart =>
    simp only [step] at h ⊢
    split_ifs at h ⊢
    · cases h
      rfl
  | objStart =>
    simp only [step] at h ⊢
    split_ifs at h ⊢
    · cases h
      rfl
  | key =>
    simp only [step] at h ⊢
    split_ifs at h ⊢
    · cases h
      rfl
    · cases h
      rfl
  | colon =>
    simp only [step] at h ⊢
    split_ifs at h ⊢
    · cases h
      rfl
    · cases h
      rfl
  | after =>
    simp only [step, afterValue] at h ⊢
    split_ifs at h ⊢
    · cases h
      rfl
  | str isKey ps =>
    simp only [step] at h ⊢
    split_ifs at h ⊢
    · cases isKey with
      | false =>
        cases h
        rfl
      | true => cases h
    · cases h
      rfl
    · cases h
      rfl
  | esc isKey ps =>
    simp only [step] at h ⊢
    split_ifs at h ⊢
    · cases h
      rfl
    · obtain ⟨b, hb, rfl⟩ := Option.map_eq_some_iff.mp h
      rw [hb]
      rfl
  | hex isKey ps digits code =>
    simp only [step] at h ⊢
    obtain ⟨d, hd, rfl⟩ := Option.map_eq_some_iff.mp h
    rw [hd, Option.map_some]
    split_ifs
    · rfl
    · rfl
  | num literal s =>
    simp only [step] at h ⊢
    cases hn : s.next c with
    | some s' =>
      rw [hn] at h
      cases h
      rfl
    | none =>
      simp only [hn] at h ⊢
      split_ifs at h ⊢
      simp only [complete, settle] at h
      split_ifs at h with hs
      cases h
      exact settle_complete_space fs _ hs
  | word w read =>
    simp only [step] at h ⊢
    split_ifs at h ⊢
    · cases h
      rfl
    · cases h
      rfl
  | done v => exact absurd rfl (hm v)

theorem step_under_some {σ τ : State} {c : UInt8} (h : step σ c = some τ) (fs : List Frame) :
    step (σ.under fs) c = some (τ.under fs) := by
  obtain ⟨stack, mode⟩ := σ
  by_cases hm : ∀ v, mode ≠ .done v
  · rw [State.under_of_not_done hm]
    cases stack with
    | nil => exact step_bottom h hm fs
    | cons g gs =>
      rw [show (⟨g :: gs, mode⟩ : State).stack ++ fs = g :: gs ++ fs from rfl,
        step_under g gs fs mode hm, h]
      rfl
  · push Not at hm
    obtain ⟨v, rfl⟩ := hm
    simp only [step] at h
    split_ifs at h with hs
    cases h
    exact step_complete_space fs v hs

theorem run_under_some {σ τ : State} {t : Text} (h : run σ t = some τ) (fs : List Frame) :
    run (σ.under fs) t = some (τ.under fs) := by
  induction t generalizing σ with
  | nil =>
    cases h
    rfl
  | cons c t ih =>
    obtain ⟨ρ, hρ, hrun⟩ := Option.bind_eq_some_iff.mp h
    rw [run, step_under_some hρ, Option.bind_some, ih hrun]

theorem next_space {s : NumState} {c : UInt8} (h : isSpace c = true) : s.next c = none := by
  simp only [isSpace, Bool.or_eq_true, decide_eq_true_eq] at h
  rcases h with ((rfl | rfl) | rfl) | rfl <;> cases s <;> rfl

/-- A text that is JSON on its own has its value inside another text. -/
theorem reads_of_parse {t : Text} {v : Value} (h : parse t = some v) : Reads t v := by
  intro f fs c rest hc
  obtain ⟨⟨stack, mode⟩, hrun, hfinish⟩ := Option.bind_eq_some_iff.mp h
  have hunder := run_under_some hrun (f :: fs)
  rw [run_append, show (⟨f :: fs, .value⟩ : State) = start.under (f :: fs) from rfl, hunder,
    Option.bind_some]
  unfold finish at hfinish
  split at hfinish
  · rename_i w heq
    cases heq
    cases hfinish
    rfl
  · rename_i literal s heq
    cases heq
    split_ifs at hfinish with ha
    cases hfinish
    exact run_num_end ha literal f fs hc rest
  · cases hfinish

/-- Spaces behind a text change nothing. -/
theorem parse_spaces {t : Text} {v : Value} (h : parse t = some v) {spaces : Text}
    (hs : spaces.all isSpace = true) : parse (t ++ spaces) = some v := by
  cases spaces with
  | nil => rwa [List.append_nil]
  | cons c spaces =>
    simp only [List.all_cons, Bool.and_eq_true] at hs
    obtain ⟨⟨stack, mode⟩, hrun, hfinish⟩ := Option.bind_eq_some_iff.mp h
    have hdone : run ⟨stack, mode⟩ (c :: spaces) = some ⟨[], .done v⟩ := by
      unfold finish at hfinish
      split at hfinish
      · rename_i w heq
        cases heq
        cases hfinish
        exact run_complete_spaces [] v (by simp [hs])
      · rename_i literal s heq
        cases heq
        split_ifs at hfinish with ha
        cases hfinish
        have hnext : s.next c = none := next_space hs.1
        simp only [run, step, hnext, ha, if_true, settle_complete_space [] _ hs.1, Option.bind_some]
        exact run_complete_spaces [] _ hs.2
      · cases hfinish
    rw [parse, eval, run_append, hrun, Option.bind_some, hdone]
    rfl

/-- Behind an object there is nothing but spaces. -/
theorem spaces_of_parse {t u : Text} {ms : List Member} (h : parse t = some (.obj ms)) {v : Value}
    (hv : parse (t ++ u) = some v) : u.all isSpace = true := by
  obtain ⟨⟨stack, mode⟩, hrun, hfinish⟩ := Option.bind_eq_some_iff.mp h
  obtain ⟨σ, hall, -⟩ := Option.bind_eq_some_iff.mp hv
  rw [run_append, hrun, Option.bind_some] at hall
  unfold finish at hfinish
  split at hfinish
  · rename_i w heq
    cases heq
    exact (run_done hall).1
  · split_ifs at hfinish
    cases hfinish
  · cases hfinish

/-! ## How long the text of a string is -/

/-- A string that is a value is being read, or was read whole. -/
def InString : Mode → Prop
  | .str isKey _ => isKey = false
  | .esc isKey _ => isKey = false
  | .hex isKey _ _ _ => isKey = false
  | .done _ => True
  | _ => False

/-- The most bytes that the pieces of a string decode to. -/
def weight : List Piece → Nat
  | [] => 0
  | .byte _ :: ps => 1 + weight ps
  | .code _ :: ps => 4 + weight ps

/-- The string starts with a piece that takes an escape. -/
def escapesFirst : List Piece → Nat
  | [] => 0
  | .byte b :: _ => if b = quote then 1 else 0
  | .code _ :: _ => 1

/-- The fewest bytes that were read of the string. -/
def cost : Mode → Nat
  | .str _ ps => weight ps + escapesFirst ps
  | .esc _ ps => weight ps + escapesFirst ps + 1
  | .hex _ ps digits _ => weight ps + escapesFirst ps + 2 + digits
  | _ => 0

theorem weight_append (ps qs : List Piece) : weight (ps ++ qs) = weight ps + weight qs := by
  induction ps with
  | nil => simp [weight]
  | cons p ps ih => cases p <;> simp only [List.cons_append, weight, ih] <;> omega

theorem escapesFirst_append (ps : List Piece) (p : Piece) :
    escapesFirst (ps ++ [p]) ≤ escapesFirst ps + 1 := by
  match ps with
  | [] =>
    cases p with
    | byte b =>
      simp only [List.nil_append, escapesFirst]
      split_ifs <;> omega
    | code n => exact Nat.le_refl _
  | .byte b :: ps => exact Nat.le_succ _
  | .code n :: ps => exact Nat.le_succ _

theorem escapesFirst_plain (ps : List Piece) {c : UInt8} (h : c ≠ quote) :
    escapesFirst (ps ++ [.byte c]) = escapesFirst ps := by
  match ps with
  | [] => simp only [List.nil_append, escapesFirst, if_neg h]
  | .byte b :: ps => rfl
  | .code n :: ps => rfl

theorem step_inString {mode : Mode} (hm : InString mode) {c : UInt8} {τ : State}
    (h : step ⟨[], mode⟩ c = some τ) :
    τ.stack = [] ∧ InString τ.mode ∧ cost τ.mode ≤ cost mode + 1 := by
  cases mode with
  | str isKey ps =>
    cases hm
    simp only [step] at h
    split_ifs at h with hq hb hl
    · cases h
      exact ⟨rfl, trivial, Nat.zero_le _⟩
    · cases h
      exact ⟨rfl, rfl, Nat.le_refl _⟩
    · cases h
      refine ⟨rfl, rfl, ?_⟩
      simp only [cost, weight_append, weight, escapesFirst_plain ps hq]
      omega
  | esc isKey ps =>
    cases hm
    simp only [step] at h
    split_ifs at h
    · cases h
      exact ⟨rfl, rfl, Nat.le_refl _⟩
    · obtain ⟨b, -, rfl⟩ := Option.map_eq_some_iff.mp h
      refine ⟨rfl, rfl, ?_⟩
      have := escapesFirst_append ps (.byte b)
      simp only [cost, weight_append, weight]
      omega
  | hex isKey ps digits code =>
    cases hm
    simp only [step] at h
    obtain ⟨d, -, rfl⟩ := Option.map_eq_some_iff.mp h
    split_ifs with h3
    · refine ⟨rfl, rfl, ?_⟩
      have := escapesFirst_append ps (.code (code * 16 + d))
      simp only [cost, weight_append, weight]
      omega
    · refine ⟨rfl, rfl, ?_⟩
      simp only [cost]
      omega
  | done v =>
    simp only [step] at h
    split_ifs at h
    cases h
    exact ⟨rfl, trivial, Nat.zero_le _⟩
  | value => cases hm
  | arrStart => cases hm
  | objStart => cases hm
  | key => cases hm
  | colon => cases hm
  | after => cases hm
  | num literal s => cases hm
  | word w read => cases hm

theorem run_inString {mode : Mode} (hm : InString mode) {e : Text} {τ : State}
    (h : run ⟨[], mode⟩ e = some τ) :
    τ.stack = [] ∧ InString τ.mode ∧ cost τ.mode ≤ cost mode + e.length := by
  induction e generalizing mode with
  | nil =>
    cases h
    exact ⟨rfl, hm, Nat.le_refl _⟩
  | cons c e ih =>
    obtain ⟨⟨stack, mode'⟩, hstep, hrun⟩ := Option.bind_eq_some_iff.mp h
    obtain ⟨rfl, hm', hcost⟩ := step_inString hm hstep
    obtain ⟨hstack, hτ, hcost'⟩ := ih hm' hrun
    refine ⟨hstack, hτ, ?_⟩
    rw [List.length_cons]
    omega

theorem length_utf8 (n : Nat) : (utf8 n).length ≤ 4 := by
  unfold utf8
  split_ifs <;> simp

theorem length_decode (ps : List Piece) : (decode ps).length ≤ weight ps := by
  induction ps using decode.induct with
  | case1 => simp [decode]
  | case2 b ps ih =>
    simp only [decode, List.length_cons, weight]
    omega
  | case3 hi lo ps hpair ih =>
    have := length_utf8 (0x10000 + (hi - 0xD800) * 0x400 + (lo - 0xDC00))
    simp only [decode, if_pos hpair, List.length_append, weight]
    omega
  | case4 hi lo ps hpair ih =>
    have := length_utf8 hi
    simp only [decode, if_neg hpair, List.length_append] at ih ⊢
    simp only [weight] at ih ⊢
    omega
  | case5 n ps hno ih =>
    have := length_utf8 n
    rw [decode.eq_4 _ _ hno]
    simp only [List.length_append, weight]
    omega

/-- A string that starts with a quote was read from a longer text. -/
theorem length_of_quote {e s : Text} {ps : List Piece}
    (h : run ⟨[], .str false []⟩ e = some ⟨[], .str false ps⟩) (hs : decode ps = quote :: s) :
    s.length + 2 ≤ e.length := by
  have hstring : InString (.str false []) := rfl
  obtain ⟨-, -, hcost⟩ := run_inString hstring h
  have hlen := length_decode ps
  have hfirst : escapesFirst ps = 1 := by
    match ps with
    | [] => cases hs
    | .byte b :: ps =>
      simp only [decode, List.cons.injEq] at hs
      simp only [escapesFirst, hs.1, if_true]
    | .code n :: ps => rfl
  rw [hs, List.length_cons] at hlen
  have hstart : cost (.str false []) = 0 := rfl
  simp only [cost, hfirst] at hcost hstart
  omega

/-- A comma and a quote do not stand in a string one behind the other. -/
theorem run_comma_quote (a b : Text) (ps : List Piece) :
    run ⟨[], .str false []⟩ (a ++ comma :: quote :: b) ≠ some ⟨[], .str false ps⟩ := by
  intro h
  rw [run_append] at h
  obtain ⟨⟨stack, mode⟩, ha, hb⟩ := Option.bind_eq_some_iff.mp h
  have hstring : InString (.str false []) := rfl
  obtain ⟨rfl, hm, -⟩ := run_inString hstring ha
  cases mode with
  | str isKey ps =>
    cases hm
    simp only [run, step, endString, complete] at hb
    have := run_done (by simpa using hb)
    cases this.2
  | esc isKey ps => simp [run, step, shortEscape] at hb
  | hex isKey ps digits code => simp [run, step, hexDigit] at hb
  | done v => cases (run_done hb).2
  | value => cases hm
  | arrStart => cases hm
  | objStart => cases hm
  | key => cases hm
  | colon => cases hm
  | after => cases hm
  | num literal s => cases hm
  | word w read => cases hm

/-! ## A string that is its own text -/

/-- The most bytes that can be decoded of what was read of a string. -/
def spelt : Mode → Nat
  | .str _ ps => weight ps
  | .esc _ ps => weight ps
  | .hex _ ps digits _ => weight ps + digits
  | _ => 0

theorem spelt_step {mode : Mode} (hm : InString mode) {c : UInt8} {τ : State}
    (h : step ⟨[], mode⟩ c = some τ) : spelt τ.mode ≤ spelt mode + 1 := by
  cases mode with
  | str isKey ps =>
    cases hm
    simp only [step] at h
    split_ifs at h with hq hb hl
    · cases h
      exact Nat.zero_le _
    · cases h
      exact Nat.le_succ _
    · cases h
      simp only [spelt, weight_append, weight]
      omega
  | esc isKey ps =>
    simp only [step] at h
    split_ifs at h
    · cases h
      exact Nat.le_succ _
    · obtain ⟨b, -, rfl⟩ := Option.map_eq_some_iff.mp h
      simp only [spelt, weight_append, weight]
      omega
  | hex isKey ps digits code =>
    simp only [step] at h
    obtain ⟨d, -, rfl⟩ := Option.map_eq_some_iff.mp h
    split_ifs with h3
    · simp only [spelt, weight_append, weight]
      omega
    · simp only [spelt]
      omega
  | done v =>
    simp only [step] at h
    split_ifs at h
    cases h
    exact Nat.zero_le _
  | value => cases hm
  | arrStart => cases hm
  | objStart => cases hm
  | key => cases hm
  | colon => cases hm
  | after => cases hm
  | num literal s => cases hm
  | word w read => cases hm

theorem spelt_run {mode : Mode} (hm : InString mode) {e : Text} {τ : State}
    (h : run ⟨[], mode⟩ e = some τ) : spelt τ.mode ≤ spelt mode + e.length := by
  induction e generalizing mode with
  | nil =>
    cases h
    exact Nat.le_refl _
  | cons c e ih =>
    obtain ⟨⟨stack, mode'⟩, hstep, hrun⟩ := Option.bind_eq_some_iff.mp h
    obtain ⟨rfl, hm', -⟩ := step_inString hm hstep
    have hstep' := spelt_step hm hstep
    have hrun' := ih hm' hrun
    rw [List.length_cons]
    omega

/-- An escape makes the text of a string longer than the string. -/
theorem plain_or_longer {e : Text} {ps qs : List Piece}
    (h : run ⟨[], .str false ps⟩ e = some ⟨[], .str false qs⟩) :
    e.all isPlain = true ∨ weight qs < weight ps + e.length := by
  induction e generalizing ps with
  | nil => exact .inl rfl
  | cons c e ih =>
    obtain ⟨σ, hstep, hrun⟩ := Option.bind_eq_some_iff.mp h
    simp only [step] at hstep
    split_ifs at hstep with hq hb hl
    · cases hstep
      cases (run_done hrun).2
    · cases hstep
      have hstring : InString (.esc false ps) := rfl
      have hspelt := spelt_run hstring hrun
      simp only [spelt] at hspelt
      rw [List.length_cons]
      exact .inr (by omega)
    · cases hstep
      have hc : isPlain c = true := by
        simp only [isPlain, UInt8.not_lt.mp hl, hq, hb, decide_true, ne_eq, not_false_eq_true,
          Bool.and_self]
      rcases ih hrun with hplain | hlt
      · exact .inl (by rw [List.all_cons, hc, hplain]; rfl)
      · rw [weight_append] at hlt
        simp only [weight] at hlt
        rw [List.length_cons]
        exact .inr (by omega)

/-- A text between quotes that is its own string has nothing to escape. -/
theorem plain_of_itself {e : Text} {ps : List Piece}
    (h : run ⟨[], .str false []⟩ e = some ⟨[], .str false ps⟩) (hs : decode ps = e) :
    e.all isPlain = true := by
  rcases plain_or_longer h with hplain | hlt
  · exact hplain
  · have hlen := length_decode ps
    simp only [weight] at hlt
    rw [hs] at hlen
    omega

/-- A control character does not stand in a string. -/
theorem run_control (a b : Text) {c : UInt8} (hc : c < 0x20) (ps : List Piece) :
    run ⟨[], .str false []⟩ (a ++ quote :: comma :: c :: b) ≠ some ⟨[], .str false ps⟩ := by
  intro h
  rw [run_append] at h
  obtain ⟨⟨stack, mode⟩, ha, hb⟩ := Option.bind_eq_some_iff.mp h
  have hstring : InString (.str false []) := rfl
  obtain ⟨rfl, hm, -⟩ := run_inString hstring ha
  have hq : c ≠ quote := by
    rintro rfl
    exact absurd hc (by decide)
  have hs : c ≠ backslash := by
    rintro rfl
    exact absurd hc (by decide)
  cases mode with
  | str isKey ps =>
    cases hm
    simp [run, step, endString, complete, isSpace] at hb
  | esc isKey ps =>
    simp only [quote, backslash] at hq hs
    simp [run, step, shortEscape, hc, hq, hs] at hb
  | hex isKey ps digits code => simp [run, step, hexDigit] at hb
  | done v => cases (run_done hb).2
  | value => cases hm
  | arrStart => cases hm
  | objStart => cases hm
  | key => cases hm
  | colon => cases hm
  | after => cases hm
  | num literal s => cases hm
  | word w read => cases hm

/-! ## Where a value has to come -/

section value

variable {f : Frame} {fs : List Frame} {w : Value}

/-- Inside a string the frames below do not count: the string ends, or is wrong, or goes on. -/
theorem step_string_cases {mode : Mode} (hm : InString mode) (hd : ∀ v, mode ≠ .done v)
    (c : UInt8) : (∃ ps, mode = .str false ps ∧ c = quote) ∨
      (∀ fs, step ⟨fs, mode⟩ c = none) ∨
      ∃ mode', InString mode' ∧ (∀ v, mode' ≠ .done v) ∧
        ∀ fs, step ⟨fs, mode⟩ c = some ⟨fs, mode'⟩ := by
  cases mode with
  | str isKey ps =>
    cases hm
    by_cases hq : c = quote
    · exact .inl ⟨ps, rfl, hq⟩
    by_cases hb : c = backslash
    · exact .inr (.inr ⟨.esc false ps, rfl, by simp, fun fs => by simp [step, hb]⟩)
    by_cases hl : c < 0x20
    · exact .inr (.inl fun fs => by simp only [step, hq, hb, hl, if_true, if_false])
    · exact .inr (.inr ⟨.str false (ps ++ [.byte c]), rfl, by simp, fun fs => by
        simp only [step, hq, hb, hl, if_false]⟩)
  | esc isKey ps =>
    cases hm
    by_cases hu : c = 0x75
    · exact .inr (.inr ⟨.hex false ps 0 0, rfl, by simp, fun fs => by simp [step, hu]⟩)
    cases he : shortEscape c with
    | none => exact .inr (.inl fun fs => by simp [step, hu, he])
    | some b =>
      exact .inr (.inr ⟨.str false (ps ++ [.byte b]), rfl, by simp, fun fs => by
        simp [step, hu, he]⟩)
  | hex isKey ps digits code =>
    cases hm
    cases hh : hexDigit c with
    | none => exact .inr (.inl fun fs => by simp [step, hh])
    | some d =>
      by_cases h3 : digits = 3
      · exact .inr (.inr ⟨.str false (ps ++ [.code (code * 16 + d)]), rfl, by simp, fun fs => by
          simp [step, hh, h3]⟩)
      · exact .inr (.inr ⟨.hex false ps (digits + 1) (code * 16 + d), rfl, by simp, fun fs => by
          simp [step, hh, h3]⟩)
  | done v => exact absurd rfl (hd v)
  | value => cases hm
  | arrStart => cases hm
  | objStart => cases hm
  | key => cases hm
  | colon => cases hm
  | after => cases hm
  | num literal s => cases hm
  | word w read => cases hm

theorem eval_string {mode : Mode} (hm : InString mode) (hd : ∀ v, mode ≠ .done v) {b : Text}
    (h : eval ⟨f :: fs, mode⟩ b = some w) :
    ∃ e b' ps, b = e ++ quote :: b' ∧ run ⟨[], mode⟩ e = some ⟨[], .str false ps⟩ ∧
      eval (complete (f :: fs) (.str (decode ps))) b' = some w := by
  induction b generalizing mode with
  | nil =>
    simp only [eval, run, Option.bind_some, finish] at h
    cases mode <;> cases h
  | cons c b ih =>
    rw [eval, run] at h
    rcases step_string_cases hm hd c with ⟨ps, rfl, rfl⟩ | hnone | ⟨mode', hm', hd', hstep⟩
    · have hend : step ⟨f :: fs, .str false ps⟩ quote =
          some (complete (f :: fs) (.str (decode ps))) := by
        simp [step, endString]
      rw [hend] at h
      exact ⟨[], b, ps, rfl, rfl, h⟩
    · rw [hnone] at h
      cases h
    · rw [hstep, Option.bind_some] at h
      obtain ⟨e, b', ps, rfl, hrun, hb'⟩ := ih hm' hd' h
      refine ⟨c :: e, b', ps, rfl, ?_, hb'⟩
      rw [run, hstep, Option.bind_some, hrun]

/-- A text between quotes at the end of a line is read as another string than itself, when
it has something to escape. -/
theorem eval_itself {e rest : Text} {c : UInt8} (hc : c < 0x20)
    (h : eval ⟨f :: fs, .str false []⟩ (e ++ quote :: comma :: c :: rest) = some w) :
    ∃ s b, eval (complete (f :: fs) (.str s)) b = some w ∧ (s = e → e.all isPlain = true) := by
  have hstring : InString (.str false []) := rfl
  obtain ⟨e', b, ps, he, hrun, hb⟩ := eval_string hstring (by simp) h
  refine ⟨decode ps, b, hb, fun hs => ?_⟩
  have hstart : spelt (.str false []) = 0 := rfl
  have hlong := spelt_run hstring hrun
  have hlen := length_decode ps
  rw [hs] at hlen
  simp only [spelt] at hlong hstart
  rw [List.append_eq_append_iff] at he
  rcases he with ⟨a, rfl, hrest⟩ | ⟨a, rfl, hrest⟩
  · match a with
    | [] =>
      rw [List.append_nil] at hrun
      exact plain_of_itself hrun hs
    | [x] => simp at hrest
    | [x, y] =>
      simp only [List.cons_append, List.nil_append, List.cons.injEq] at hrest
      obtain ⟨-, -, rfl, -⟩ := hrest
      exact absurd hc (by decide)
    | x :: y :: z :: a =>
      simp only [List.cons_append, List.cons.injEq] at hrest
      obtain ⟨rfl, rfl, rfl, -⟩ := hrest
      exact absurd hrun (run_control e a hc ps)
  · have ha : a = [] := by
      rw [List.length_append] at hlen
      exact List.eq_nil_of_length_eq_zero (by omega)
    subst ha
    rw [List.append_nil] at hs ⊢
    exact plain_of_itself hrun hs

theorem eval_num {literal : Text} {s : NumState} {b : Text}
    (h : eval ⟨f :: fs, .num literal s⟩ b = some w) :
    ∃ literal' b', eval (complete (f :: fs) (.num literal')) b' = some w := by
  induction b generalizing literal s with
  | nil => cases h
  | cons c b ih =>
    rw [eval, run] at h
    cases hn : s.next c with
    | some s' =>
      simp only [step, hn, Option.bind_some] at h
      exact ih h
    | none =>
      simp only [step, hn] at h
      split_ifs at h
      · refine ⟨literal, c :: b, ?_⟩
        rw [eval, run]
        cases f <;> exact h
      · cases h

theorem eval_word {v : Word} {read : Nat} {b : Text}
    (h : eval ⟨f :: fs, .word v read⟩ b = some w) :
    ∃ b', eval (complete (f :: fs) v.value) b' = some w := by
  induction b generalizing read with
  | nil => cases h
  | cons c b ih =>
    rw [eval, run] at h
    simp only [step] at h
    split_ifs at h
    · exact ⟨b, h⟩
    · exact ih h
    · cases h

/-- An array or an object that closes is not a string. -/
theorem eval_open {g : Frame} {mode : Mode} (hm : ∀ v, mode ≠ .done v) {b : Text}
    (h : eval ⟨g :: f :: fs, mode⟩ b = some w) :
    ∃ v b', eval (complete (f :: fs) v) b' = some w ∧ ∀ s, v ≠ .str s := by
  rw [show g :: f :: fs = [g] ++ (f :: fs) from rfl] at h
  obtain ⟨b₁, b₂, v, rfl, hrun, hrest⟩ := run_closes hm h
  refine ⟨v, b₂, hrest, ?_⟩
  rw [← Family.const_frame g] at hrun
  obtain ⟨G, -, hall⟩ := run_family_top hm hrun
  rw [hall (), Option.some.injEq] at hrun
  cases hrun
  intro s hs
  cases G <;> cases hs

/-- Of the value that is read, it is known where it ends when it is a string. -/
theorem eval_value {c : UInt8} (hc : isSpace c = false) {b : Text}
    (h : eval ⟨f :: fs, .value⟩ (c :: b) = some w) :
    ∃ v b', eval (complete (f :: fs) v) b' = some w ∧ ∀ s, v = .str s → c = quote ∧
      ∃ e ps, b = e ++ quote :: b' ∧ decode ps = s ∧
        run ⟨[], .str false []⟩ e = some ⟨[], .str false ps⟩ := by
  rw [eval, run] at h
  simp only [step, hc, Bool.false_eq_true, if_false] at h
  unfold startValue at h
  split_ifs at h with h1 h2 h3 h4 h5 h6
  · obtain ⟨v, b', hb', hv⟩ := eval_open (by simp) h
    exact ⟨v, b', hb', fun s hs => absurd hs (hv s)⟩
  · obtain ⟨v, b', hb', hv⟩ := eval_open (by simp) h
    exact ⟨v, b', hb', fun s hs => absurd hs (hv s)⟩
  · have hstring : InString (.str false []) := rfl
    obtain ⟨e, b', ps, rfl, hrun, hb'⟩ := eval_string hstring (by simp) h
    refine ⟨_, b', hb', fun s hs => ⟨h3, e, ps, rfl, by simpa using hs, hrun⟩⟩
  · obtain ⟨b', hb'⟩ := eval_word h
    exact ⟨_, b', hb', fun s hs => by cases hs⟩
  · obtain ⟨b', hb'⟩ := eval_word h
    exact ⟨_, b', hb', fun s hs => by cases hs⟩
  · obtain ⟨b', hb'⟩ := eval_word h
    exact ⟨_, b', hb', fun s hs => by cases hs⟩
  · cases hn : NumState.start c with
    | none =>
      rw [hn] at h
      cases h
    | some s =>
      rw [hn] at h
      obtain ⟨literal, b', hb'⟩ := eval_num h
      exact ⟨_, b', hb', fun s hs => by cases hs⟩

/-- A text that is put where a value has to come is not read as the string of the text. -/
theorem eval_not_itself {t rest : Text} (ht : ∃ c t', t = c :: t' ∧ isSpace c = false)
    (hrest : (∃ b, rest = comma :: quote :: b) ∨ rest = [rbrace, rbrace])
    (h : eval ⟨f :: fs, .value⟩ (t ++ rest) = some w) :
    ∃ v b, eval (complete (f :: fs) v) b = some w ∧ v ≠ .str t := by
  obtain ⟨c, t', rfl, hc⟩ := ht
  rw [List.cons_append] at h
  obtain ⟨v, b, hb, hstr⟩ := eval_value hc h
  refine ⟨v, b, hb, fun hv => ?_⟩
  obtain ⟨rfl, e, ps, he, hps, hrun⟩ := hstr _ hv
  have hlong := length_of_quote hrun hps
  -- the string ends behind the text, where the second byte is the quote of the next key
  rw [List.append_eq_append_iff] at he
  rcases he with ⟨a, rfl, hrest'⟩ | ⟨a, rfl, -⟩
  · rw [List.length_append] at hlong
    match a with
    | [] => simp at hlong
    | [_] => simp at hlong
    | x :: y :: a =>
      rcases hrest with ⟨b', rfl⟩ | rfl
      · simp only [List.cons_append, List.cons.injEq] at hrest'
        obtain ⟨rfl, rfl, -⟩ := hrest'
        exact run_comma_quote t' a ps hrun
      · have := congrArg List.length hrest'
        simp at this
  · rw [List.length_append] at hlong
    omega

end value

end json
