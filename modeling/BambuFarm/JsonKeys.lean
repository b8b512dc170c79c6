-- The keys of a JSON text. Where the text of a key stands, the machine is about to
-- read a key, unless some key of the text has a quote in it: in a string the quote
-- behind the key would end the string, and no colon follows a string that is a value.
import BambuFarm.JsonRead
import BambuFarm.JsonSearch

namespace json

/-! ## The keys of a value -/

/-- The key stands somewhere in the value. -/
inductive HasKey (k : Text) : Value → Prop
  | here {ms : List Member} {v : Value} (h : (k, v) ∈ ms) : HasKey k (.obj ms)
  | elem {es : List Value} {v : Value} (hv : v ∈ es) (h : HasKey k v) : HasKey k (.arr es)
  | member {ms : List Member} {k' : Text} {v : Value} (hm : (k', v) ∈ ms) (h : HasKey k v) :
      HasKey k (.obj ms)

theorem HasKey.plug {k : Text} {v : Value} (h : HasKey k v) (hs : List Hole) :
    HasKey k (json.plug hs v) := by
  induction hs generalizing v with
  | nil => exact h
  | cons hole hs ih =>
    cases hole with
    | elem before after => exact ih (.elem (by simp) h)
    | member before key after =>
      exact ih (.member (List.mem_append_right before List.mem_cons_self) h)

section read

variable {fs : List Frame} {ms : List Member} {k : Text} {w : Value}

theorem hasKey_of_complete {v : Value} {b : Text}
    (h : eval (complete (.obj ms k :: fs) v) b = some w) : HasKey k w := by
  obtain ⟨after, hs, -, rfl⟩ := eval_complete_member h
  exact HasKey.plug (.here (List.mem_append_right ms List.mem_cons_self)) hs

/-- Where a value has to come, a value comes. -/
theorem eval_some_value {f : Frame} {b : Text} (h : eval ⟨f :: fs, .value⟩ b = some w) :
    ∃ v b', eval (complete (f :: fs) v) b' = some w := by
  induction b with
  | nil => cases h
  | cons c b ih =>
    by_cases hc : isSpace c = true
    · have hstep : step ⟨f :: fs, .value⟩ c = some ⟨f :: fs, .value⟩ := by simp [step, hc]
      rw [eval, run, hstep] at h
      exact ih h
    · obtain ⟨v, b', hb', -⟩ := eval_value (by simpa using hc) h
      exact ⟨v, b', hb'⟩

/-- A key whose colon has been read is a key of the value. -/
theorem hasKey_of_value {b : Text} (h : eval ⟨.obj ms k :: fs, .value⟩ b = some w) :
    HasKey k w := by
  obtain ⟨v, b', hb'⟩ := eval_some_value h
  exact hasKey_of_complete hb'

end read

/-! ## The text of a key -/

theorem mem_decode {b : UInt8} {ps : List Piece} (h : .byte b ∈ ps) : b ∈ decode ps := by
  induction ps using decode.induct with
  | case1 => cases h
  | case2 c ps ih =>
    rw [decode, List.mem_cons]
    rcases List.mem_cons.mp h with heq | hmem
    · exact .inl (Piece.byte.inj heq)
    · exact .inr (ih hmem)
  | case3 hi lo ps hpair ih =>
    rw [decode, if_pos hpair, List.mem_append]
    exact .inr (ih (by simpa using h))
  | case4 hi lo ps hpair ih =>
    rw [decode, if_neg hpair, List.mem_append]
    exact .inr (ih (by simpa using h))
  | case5 n ps hno ih =>
    rw [decode.eq_4 _ _ hno, List.mem_append]
    exact .inr (ih (by simpa using h))

/-- What can follow a value. -/
theorem step_complete_none {c : UInt8} (hs : isSpace c = false) (hcomma : c ≠ comma)
    (hrbrace : c ≠ rbrace) (hrbracket : c ≠ rbracket) (fs : List Frame) (v : Value) :
    step (complete fs v) c = none := by
  match fs with
  | [] => simp only [complete, step, hs, Bool.false_eq_true, if_false]
  | .arr es :: fs =>
    simp only [complete, step, afterValue, hs, hcomma, hrbracket, Bool.false_eq_true, if_false]
  | .obj ms k :: fs =>
    simp only [complete, step, afterValue, hs, hcomma, hrbrace, Bool.false_eq_true, if_false]

/-- A key ends in an object, and a colon has to come. -/
theorem endString_key {fs : List Frame} {s : Text} {σ : State}
    (h : endString fs true s = some σ) :
    ∃ ms k fs', fs = .obj ms k :: fs' ∧ σ = ⟨.obj ms s :: fs', .colon⟩ := by
  cases fs with
  | nil => cases h
  | cons f fs =>
    cases f with
    | arr es => cases h
    | obj ms k =>
      cases h
      exact ⟨ms, k, fs, rfl, rfl⟩

theorem settle_complete_none (fs : List Frame) (v : Value) :
    settle (complete fs v) quote = none := by
  cases fs with
  | nil => rfl
  | cons f fs => cases f <;> rfl

/-- A quote starts a value or a key, ends a string, or is escaped. -/
theorem step_quote {σ τ : State} (h : step σ quote = some τ) :
    τ = ⟨σ.stack, .str false []⟩ ∨
      (σ.mode = .objStart ∨ σ.mode = .key) ∧ τ = ⟨σ.stack, .str true []⟩ ∨
      (∃ isKey ps, endString σ.stack isKey (decode ps) = some τ) ∨
      ∃ isKey ps, τ = ⟨σ.stack, .str isKey (ps ++ [.byte quote])⟩ := by
  obtain ⟨fs, mode⟩ := σ
  cases mode with
  | value =>
    cases h
    exact .inl rfl
  | arrStart =>
    cases fs with
    | nil => cases h
    | cons f fs =>
      cases f with
      | obj ms k => cases h
      | arr es =>
        cases h
        exact .inl rfl
  | objStart =>
    cases fs with
    | nil => cases h
    | cons f fs =>
      cases f with
      | arr es => cases h
      | obj ms k =>
        cases h
        exact .inr (.inl ⟨.inl rfl, rfl⟩)
  | key =>
    cases h
    exact .inr (.inl ⟨.inr rfl, rfl⟩)
  | colon => cases h
  | after =>
    cases fs with
    | nil => cases h
    | cons f fs => cases f <;> cases h
  | str isKey ps => exact .inr (.inr (.inl ⟨isKey, ps, h⟩))
  | esc isKey ps =>
    cases h
    exact .inr (.inr (.inr ⟨isKey, ps, rfl⟩))
  | hex isKey ps digits code => cases h
  | num literal s =>
    have hnext : s.next quote = none := by cases s <;> rfl
    simp only [step, hnext, settle_complete_none, ite_self] at h
    cases h
  | word u read =>
    have hletters : quote ∉ u.letters := by cases u <;> decide
    have hget : u.letters[read]? ≠ some quote := fun hget => hletters (List.mem_of_getElem? hget)
    simp only [step, hget, if_false] at h
    cases h
  | done u => cases h

section key

variable {key : Text} (hkey : key.all isKeyByte = true) (hne : key ≠ [])

include hkey in
theorem key_plain : key.all isPlain = true := by
  rw [List.all_eq_true]
  intro c hc
  obtain ⟨hq, hb, -⟩ := key_not_special hkey hc
  have hl : 0x20 ≤ c := by
    have hbyte := List.all_eq_true.mp hkey c hc
    simp only [isKeyByte, isDigit, Bool.or_eq_true, Bool.and_eq_true, decide_eq_true_eq] at hbyte
    rcases hbyte with (⟨h, -⟩ | ⟨h, -⟩) | rfl
    · exact UInt8.le_trans (by decide) h
    · exact UInt8.le_trans (by decide) h
    · decide
  simp only [isPlain, hl, hq, hb, decide_true, ne_eq, not_false_eq_true, Bool.and_self]

include hkey in
theorem eval_key_string (fs : List Frame) (isKey : Bool) (ps : List Piece) (b : Text) :
    eval ⟨fs, .str isKey ps⟩ (key ++ quote :: b) =
      (endString fs isKey (decode (ps ++ key.map .byte))).bind fun σ => eval σ b := by
  have hend : step ⟨fs, .str isKey (ps ++ key.map .byte)⟩ quote =
      endString fs isKey (decode (ps ++ key.map .byte)) := by
    simp [step]
  rw [eval, run_append, spells_plain (key_plain hkey), Option.bind_some, run, hend]
  cases endString fs isKey (decode (ps ++ key.map .byte)) <;> rfl

include hkey in
/-- A string with the key at its end is no value when a colon follows. -/
theorem eval_key_in_value (fs : List Frame) (ps : List Piece) (b : Text) :
    eval ⟨fs, .str false ps⟩ (key ++ quote :: colon :: b) = none := by
  rw [eval_key_string hkey]
  simp only [endString, Bool.false_eq_true, if_false, Option.bind_some]
  rw [eval, run, step_complete_none (by decide) (by decide) (by decide) (by decide)]
  rfl

include hkey hne in
/-- No key starts right behind a quote that ends a string. -/
theorem eval_key_behind (fs : List Frame) (isKey : Bool) (s : Text) (b : Text) :
    ((endString fs isKey s).bind fun σ => eval σ (key ++ b)) = none := by
  obtain ⟨k, ks, rfl⟩ := List.exists_cons_of_ne_nil hne
  have hk : isKeyByte k = true := List.all_eq_true.mp hkey k List.mem_cons_self
  have hspace : isSpace k = false := by
    by_contra hs
    simp only [isSpace, Bool.not_eq_false, Bool.or_eq_true, decide_eq_true_eq] at hs
    rcases hs with ((rfl | rfl) | rfl) | rfl <;> exact absurd hk (by decide)
  have hmarks : k ≠ comma ∧ k ≠ rbrace ∧ k ≠ rbracket ∧ k ≠ colon := by
    refine ⟨?_, ?_, ?_, ?_⟩
    all_goals
      rintro rfl
      exact absurd hk (by decide)
  cases isKey with
  | false =>
    simp only [endString, Bool.false_eq_true, if_false, Option.bind_some, List.cons_append, eval,
      run, step_complete_none hspace hmarks.1 hmarks.2.1 hmarks.2.2.1, Option.bind_none]
  | true =>
    cases hend : endString fs true s with
    | none => rfl
    | some σ =>
      obtain ⟨ms, k', fs', rfl, rfl⟩ := endString_key hend
      simp only [Option.bind_some, List.cons_append, eval, run, step, hspace, hmarks.2.2.2,
        Bool.false_eq_true, if_false, Option.bind_none]

include hkey hne in
/-- Where the text of a key stands with its colon, the machine is about to read a key. -/
theorem key_next {a b : Text} {v : Value} (h : parse (a ++ (keyPattern key ++ b)) = some v)
    (hkeys : ∀ k, HasKey k v → quote ∉ k) :
    ∃ ms k fs mode, (mode = .objStart ∨ mode = .key) ∧
      run start a = some ⟨.obj ms k :: fs, mode⟩ := by
  rw [parse, eval_append] at h
  obtain ⟨⟨fs, mode⟩, hrun, hrest⟩ := Option.bind_eq_some_iff.mp h
  have htext : keyPattern key ++ b = quote :: (key ++ quote :: colon :: b) := by simp [keyPattern]
  rw [htext, eval, run, Option.bind_assoc] at hrest
  obtain ⟨τ, hstep, hvalue⟩ := Option.bind_eq_some_iff.mp hrest
  have heval : eval τ (key ++ quote :: colon :: b) = some v := hvalue
  rcases step_quote hstep with rfl | ⟨hmode, rfl⟩ | ⟨isKey, ps, hend⟩ | ⟨isKey, ps, rfl⟩
  · rw [eval_key_in_value hkey] at heval
    cases heval
  · rw [eval_key_string hkey] at heval
    obtain ⟨σ, hend, -⟩ := Option.bind_eq_some_iff.mp heval
    obtain ⟨ms, k, fs', rfl, -⟩ := endString_key hend
    exact ⟨ms, k, fs', mode, hmode, hrun⟩
  · have hnone := eval_key_behind hkey hne fs isKey (decode ps) (quote :: colon :: b)
    rw [hend, Option.bind_some, heval] at hnone
    cases hnone
  · cases isKey with
    | false =>
      rw [eval_key_in_value hkey] at heval
      cases heval
    | true =>
      -- an escaped quote in a key: the key would have it
      rw [eval_key_string hkey] at heval
      obtain ⟨σ, hend, hcolon⟩ := Option.bind_eq_some_iff.mp heval
      obtain ⟨ms, k, fs', rfl, rfl⟩ := endString_key hend
      have hquote : quote ∈ decode (ps ++ [.byte quote] ++ key.map .byte) :=
        mem_decode (by simp)
      exact absurd hquote (hkeys _ (hasKey_of_value hcolon))

end key

/-! ## The text of a value -/

/-- What is left of the text of a string has its quotes escaped. -/
def EscapedFrom : Mode → Text → Prop
  | .esc _ _, e => ∃ c e', e = c :: e' ∧ Escaped e'
  | _, e => Escaped e

theorem hexDigit_some {c : UInt8} {d : Nat} (h : hexDigit c = some d) :
    c ≠ quote ∧ c ≠ backslash := by
  constructor
  · rintro rfl
    cases h
  · rintro rfl
    cases h

theorem escaped_of_run {mode : Mode} (hm : InString mode) {e : Text} {ps : List Piece}
    (h : run ⟨[], mode⟩ e = some ⟨[], .str false ps⟩) : EscapedFrom mode e := by
  induction e generalizing mode with
  | nil =>
    cases h
    exact Escaped.nil
  | cons c e ih =>
    obtain ⟨σ, hstep, hrun⟩ := Option.bind_eq_some_iff.mp h
    obtain ⟨hstack, hm', -⟩ := step_inString hm hstep
    obtain ⟨stack, mode'⟩ := σ
    obtain rfl : stack = [] := hstack
    have hrest := ih hm' hrun
    cases mode with
    | str isKey qs =>
      cases hm
      simp only [step] at hstep
      split_ifs at hstep with hq hb hl
      · cases hstep
        cases (run_done hrun).2
      · cases hstep
        obtain ⟨d, e', rfl, he'⟩ := hrest
        rw [hb]
        exact Escaped.escape he'
      · cases hstep
        exact Escaped.plain hq hb hrest
    | esc isKey qs =>
      simp only [step] at hstep
      split_ifs at hstep
      · cases hstep
        exact ⟨c, e, rfl, hrest⟩
      · obtain ⟨b, -, heq⟩ := Option.map_eq_some_iff.mp hstep
        cases heq
        exact ⟨c, e, rfl, hrest⟩
    | hex isKey qs digits code =>
      simp only [step] at hstep
      obtain ⟨d, hd, heq⟩ := Option.map_eq_some_iff.mp hstep
      obtain ⟨hq, hb⟩ := hexDigit_some hd
      split_ifs at heq
      · cases heq
        exact Escaped.plain hq hb hrest
      · cases heq
        exact Escaped.plain hq hb hrest
    | done v => cases (run_done h).2
    | value => cases hm
    | arrStart => cases hm
    | objStart => cases hm
    | key => cases hm
    | colon => cases hm
    | after => cases hm
    | num literal s => cases hm
    | word w read => cases hm

/-- Behind the key, a space and a quote there is a string, and then no colon. -/
theorem spaced_value {key : Text} (hkey : key.all isKeyByte = true) (hne : key ≠ [])
    {a t : Text} {v : Value} (h : parse (a ++ (keyPattern key ++ ([0x20, quote] ++ t))) = some v)
    (hkeys : ∀ k, HasKey k v → quote ∉ k) :
    ∃ e rest, t = e ++ quote :: rest ∧ Escaped e ∧ Behind rest := by
  obtain ⟨ms, k, fs, mode, hmode, hrun⟩ := key_next hkey hne h hkeys
  have hopen : run ⟨.obj ms key :: fs, .value⟩ [0x20, quote] =
      some ⟨.obj ms key :: fs, .str false []⟩ := by
    simp [run, step, isSpace, startValue]
  have hstring : InString (.str false []) := rfl
  rw [parse, eval_append, hrun, Option.bind_some, eval_append, keyPattern,
    run_key (key_plain hkey) hmode, Option.bind_some, eval_append, hopen, Option.bind_some] at h
  obtain ⟨e, rest, ps, rfl, he, hrest⟩ := eval_string hstring (by simp) h
  refine ⟨e, rest, rfl, escaped_of_run hstring he, fun c hc => ?_⟩
  obtain ⟨rest', rfl⟩ := List.head?_eq_some_iff.mp hc
  by_contra hno
  simp only [not_or, Bool.not_eq_true] at hno
  have hnone : step (complete (.obj ms key :: fs) (.str (decode ps))) c = none := by
    simp only [complete, step, afterValue, hno, Bool.false_eq_true, if_false]
  rw [eval, run, hnone] at hrest
  cases hrest

end json
