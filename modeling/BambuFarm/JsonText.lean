-- JSON texts that a program puts together: strings, decimal numbers and
-- objects without spaces, and what the machine reads in them.
import BambuFarm.Json
import Mathlib.Tactic.IntervalCases

namespace json

/-! ## Strings -/

/-- The bytes that stand for themselves in a string. -/
def isPlain (c : UInt8) : Bool := 0x20 ≤ c && c ≠ quote && c ≠ backslash

/-- Between two quotes, `e` spells the string `s`. -/
def Spells (e s : Text) : Prop :=
  ∀ fs isKey ps, run ⟨fs, .str isKey ps⟩ e = some ⟨fs, .str isKey (ps ++ s.map .byte)⟩

theorem decode_bytes (s : Text) : decode (s.map .byte) = s := by
  induction s with
  | nil => rfl
  | cons b s ih => simpa [decode] using ih

theorem Spells.nil : Spells [] [] := by
  intro fs isKey ps
  simp [run]

theorem Spells.append {e e' s s' : Text} (h : Spells e s) (h' : Spells e' s') :
    Spells (e ++ e') (s ++ s') := by
  intro fs isKey ps
  rw [run_append, h, Option.bind_some, h']
  simp

theorem spells_byte {c : UInt8} (h : isPlain c = true) : Spells [c] [c] := by
  intro fs isKey ps
  simp only [isPlain, Bool.and_eq_true, decide_eq_true_eq] at h
  obtain ⟨⟨hl, hq⟩, hb⟩ := h
  simp only [run, step, hq, hb, if_false, UInt8.not_lt.mpr hl, Option.bind_some, List.map_cons,
    List.map_nil]

theorem spells_escape {c b : UInt8} (hc : c ≠ 0x75) (h : shortEscape c = some b) :
    Spells [backslash, c] [b] := by
  intro fs isKey ps
  simp [run, step, hc, h]

/-- A text with no byte that has to be escaped spells itself. -/
theorem spells_plain {t : Text} (h : t.all isPlain = true) : Spells t t := by
  induction t with
  | nil => exact .nil
  | cons c t ih =>
    simp only [List.all_cons, Bool.and_eq_true] at h
    exact (spells_byte h.1).append (ih h.2)

theorem run_string {e s : Text} (h : Spells e s) (fs : List Frame) :
    run ⟨fs, .value⟩ (quote :: e ++ [quote]) = some (complete fs (.str s)) := by
  have hstart : step ⟨fs, .value⟩ quote = some ⟨fs, .str false []⟩ := by
    simp [step, isSpace, startValue]
  rw [List.cons_append, run, hstart, Option.bind_some, run_append, h, Option.bind_some]
  simp [run, step, endString, decode_bytes]

/-- The key of a member and its colon. -/
theorem run_key {k : Text} (hk : k.all isPlain = true) {mode : Mode}
    (hm : mode = .objStart ∨ mode = .key) (ms : List Member) (k' : Text) (fs : List Frame) :
    run ⟨.obj ms k' :: fs, mode⟩ (quote :: k ++ [quote, colon]) =
      some ⟨.obj ms k :: fs, .value⟩ := by
  have hstart : step ⟨.obj ms k' :: fs, mode⟩ quote = some ⟨.obj ms k' :: fs, .str true []⟩ := by
    rcases hm with rfl | rfl <;> simp [step, isSpace]
  rw [List.cons_append, run, hstart, Option.bind_some, run_append, spells_plain hk,
    Option.bind_some]
  simp [run, step, endString, decode_bytes, isSpace]

/-! ## Values in a row -/

/-- The value of the text, when a comma or a closing brace follows. -/
def Reads (t : Text) (v : Value) : Prop :=
  ∀ f fs c rest, c = comma ∨ c = rbrace →
    run ⟨f :: fs, .value⟩ (t ++ c :: rest) = run (complete (f :: fs) v) (c :: rest)

theorem reads_string {e s : Text} (h : Spells e s) : Reads (quote :: e ++ [quote]) (.str s) := by
  intro f fs c rest _
  rw [run_append, run_string h, Option.bind_some]

def digit (d : Nat) : UInt8 := (0x30 + d).toUInt8

/-- The decimal spelling of a number. -/
def decimal (n : Nat) : Text :=
  if n < 10 then [digit n] else decimal (n / 10) ++ [digit (n % 10)]

/-- The number state of a decimal number that is read. -/
def decimalState (n : Nat) : NumState := if n = 0 then .zero else .int

theorem isDigit_digit {d : Nat} (h : d < 10) : isDigit (digit d) = true := by
  interval_cases d <;> decide

theorem step_digit (fs : List Frame) {d : Nat} (h : d < 10) :
    step ⟨fs, .value⟩ (digit d) = some ⟨fs, .num [digit d] (decimalState d)⟩ := by
  interval_cases d <;> rfl

theorem decimalState_accepts (n : Nat) : (decimalState n).accepts = true := by
  unfold decimalState
  split_ifs <;> rfl

/-- A number goes on with its digits, wherever the first of them may stand. -/
theorem run_digits (literal : Text) {σ : State} {fs : List Frame}
    (h : ∀ d < 10, step σ (digit d) = some ⟨fs, .num (literal ++ [digit d]) (decimalState d)⟩)
    (n : Nat) :
    run σ (decimal n) = some ⟨fs, .num (literal ++ decimal n) (decimalState n)⟩ := by
  induction n using Nat.strongRecOn with
  | ind n ih =>
    rw [decimal]
    split_ifs with hn
    · rw [run, h n hn]
      rfl
    · have hpos : n / 10 ≠ 0 := by omega
      have hd := isDigit_digit (Nat.mod_lt n (by omega : 0 < 10))
      rw [run_append, ih (n / 10) (by omega), Option.bind_some]
      simp [run, step, decimalState, hpos, NumState.next, hd, show n ≠ 0 by omega]

theorem run_decimal (fs : List Frame) (n : Nat) :
    run ⟨fs, .value⟩ (decimal n) = some ⟨fs, .num (decimal n) (decimalState n)⟩ :=
  run_digits [] (fun _ => step_digit fs) n

theorem next_none {s : NumState} {c : UInt8} (h : c = comma ∨ c = rbrace) : s.next c = none := by
  rcases h with rfl | rfl <;> cases s <;> rfl

/-- A number ends where a comma or a brace follows. -/
theorem run_num_end {s : NumState} (h : s.accepts = true) (literal : Text) (f : Frame)
    (fs : List Frame) {c : UInt8} (hc : c = comma ∨ c = rbrace) (rest : Text) :
    run ⟨f :: fs, .num literal s⟩ (c :: rest) =
      run (complete (f :: fs) (.num literal)) (c :: rest) := by
  have hstep : step ⟨f :: fs, .num literal s⟩ c = step (complete (f :: fs) (.num literal)) c := by
    simp only [step, next_none hc, h, if_true]
    cases f <;> rfl
  rw [run, run, hstep]

theorem reads_decimal (n : Nat) : Reads (decimal n) (.num (decimal n)) := by
  intro f fs c rest hc
  rw [run_append, run_decimal, Option.bind_some, run_num_end (decimalState_accepts n) _ f fs hc]

/-! ## Decimal numbers -/

theorem digits_decimal (n : Nat) : (decimal n).all isDigit = true := by
  induction n using Nat.strongRecOn with
  | ind n ih =>
    rw [decimal]
    split_ifs with hn
    · simp [isDigit_digit hn]
    · simp only [List.all_append, ih (n / 10) (by omega), Bool.true_and, List.all_cons,
        List.all_nil, Bool.and_true]
      exact isDigit_digit (Nat.mod_lt n (by omega))

theorem decimal_ne_nil (n : Nat) : decimal n ≠ [] := by
  rw [decimal]
  split_ifs <;> simp

theorem isDigit_le {c : UInt8} (h : isDigit c = true) : 0x30 ≤ c ∧ c ≤ 0x39 := by
  simpa [isDigit] using h

theorem digit_toNat {d : Nat} (h : d < 10) : (digit d).toNat - 0x30 = d := by
  interval_cases d <;> rfl

theorem digits_value (n : Nat) :
    (decimal n).foldl (fun n c => 10 * n + (c.toNat - 0x30)) 0 = n := by
  induction n using Nat.strongRecOn with
  | ind n ih =>
    rw [decimal]
    split_ifs with hn
    · simp [digit_toNat hn]
    · rw [List.foldl_append, ih (n / 10) (by omega)]
      simp only [List.foldl_cons, List.foldl_nil, digit_toNat (Nat.mod_lt n (by omega))]
      omega

/-! ## Objects -/

/-- Texts with a comma between any two. -/
def joined : List Text → Text
  | [] => []
  | [t] => t
  | t :: ts => t ++ comma :: joined ts

def memberText (k t : Text) : Text := quote :: k ++ [quote, colon] ++ t

/-- An object of members that are given by their keys and the texts of their values. -/
def objectText (ms : List (Text × Text)) : Text :=
  lbrace :: joined (ms.map fun m => memberText m.1 m.2) ++ [rbrace]

/-- The keys need no escape, and the texts have the values. -/
def Members (ms : List (Text × Text)) (vs : List Member) : Prop :=
  List.Forall₂ (fun m v => m.1 = v.1 ∧ m.1.all isPlain = true ∧ Reads m.2 v.2) ms vs

theorem Members.nil : Members [] [] := List.Forall₂.nil

theorem Members.cons {k t : Text} {v : Value} {ts : List (Text × Text)} {vs : List Member}
    (hk : k.all isPlain = true) (ht : Reads t v) (h : Members ts vs) :
    Members ((k, t) :: ts) ((k, v) :: vs) :=
  List.Forall₂.cons ⟨rfl, hk, ht⟩ h

theorem run_member {k t : Text} {v : Value} (hk : k.all isPlain = true) (ht : Reads t v)
    {mode : Mode} (hm : mode = .objStart ∨ mode = .key) (ms : List Member) (k' : Text)
    (fs : List Frame) {c : UInt8} (hc : c = comma ∨ c = rbrace) (rest : Text) :
    run ⟨.obj ms k' :: fs, mode⟩ (memberText k t ++ c :: rest) =
      run ⟨.obj (ms ++ [(k, v)]) [] :: fs, .after⟩ (c :: rest) := by
  rw [memberText, List.append_assoc, run_append, run_key hk hm, Option.bind_some,
    ht _ _ _ _ hc]
  rfl

theorem run_members {ts : List (Text × Text)} {vs : List Member} (h : Members ts vs)
    (hne : ts ≠ []) {mode : Mode} (hm : mode = .objStart ∨ mode = .key) (ms : List Member)
    (k' : Text) (fs : List Frame) (rest : Text) :
    run ⟨.obj ms k' :: fs, mode⟩ (joined (ts.map fun m => memberText m.1 m.2) ++ rbrace :: rest) =
      run (complete fs (.obj (ms ++ vs))) rest := by
  induction h generalizing mode ms k' with
  | nil => exact absurd rfl hne
  | @cons m v ts vs hmv hts ih =>
    obtain ⟨hk, hplain, hreads⟩ := hmv
    have hv : (m.1, v.2) = v := by rw [hk]
    cases ts with
    | nil =>
      cases hts
      simp only [List.map_cons, List.map_nil, joined]
      rw [run_member hplain hreads hm ms k' fs (Or.inr rfl), hv]
      simp [run, step, afterValue, isSpace]
    | cons m' ts =>
      simp only [List.map_cons, joined, List.append_assoc, List.cons_append]
      rw [run_member hplain hreads hm ms k' fs (Or.inl rfl), hv]
      have hcomma : step ⟨.obj (ms ++ [v]) [] :: fs, .after⟩ comma =
          some ⟨.obj (ms ++ [v]) [] :: fs, .key⟩ := by
        simp [step, afterValue, isSpace]
      rw [run, hcomma, Option.bind_some]
      simpa using ih (by simp) (Or.inr rfl) (ms ++ [v]) []

theorem run_objectText {ts : List (Text × Text)} {vs : List Member} (h : Members ts vs)
    (hne : ts ≠ []) (fs : List Frame) (rest : Text) :
    run ⟨fs, .value⟩ (objectText ts ++ rest) = run (complete fs (.obj vs)) rest := by
  have hstart : step ⟨fs, .value⟩ lbrace = some ⟨.obj [] [] :: fs, .objStart⟩ := by
    simp [step, isSpace, startValue]
  rw [objectText, List.cons_append, List.cons_append, run, hstart, Option.bind_some,
    List.append_assoc, List.singleton_append, run_members h hne (Or.inl rfl), List.nil_append]

theorem reads_objectText {ts : List (Text × Text)} {vs : List Member} (h : Members ts vs)
    (hne : ts ≠ []) : Reads (objectText ts) (.obj vs) := by
  intro f fs c rest _
  exact run_objectText h hne (f :: fs) (c :: rest)

theorem parse_objectText {ts : List (Text × Text)} {vs : List Member} (h : Members ts vs)
    (hne : ts ≠ []) : parse (objectText ts) = some (.obj vs) := by
  have := run_objectText h hne [] []
  rw [List.append_nil] at this
  rw [parse, eval, start, this]
  rfl

/-! ## Arrays -/

/-- A text that is a value and ends by itself, whatever follows. -/
structure Whole (t : Text) (v : Value) : Prop where
  head : ∃ c u, t = c :: u ∧ isSpace c = false ∧ c ≠ rbracket
  reads : ∀ fs rest, run ⟨fs, .value⟩ (t ++ rest) = run (complete fs v) rest

theorem Whole.toReads {t : Text} {v : Value} (h : Whole t v) : Reads t v := by
  intro f fs c rest _
  exact h.reads (f :: fs) (c :: rest)

theorem whole_objectText {ts : List (Text × Text)} {vs : List Member} (h : Members ts vs) :
    Whole (objectText ts) (.obj vs) := by
  refine ⟨⟨lbrace, _, rfl, by decide, by decide⟩, fun fs rest => ?_⟩
  cases h with
  | nil => simp [objectText, joined, run, step, startValue, isSpace]
  | cons hm hts => exact run_objectText (List.Forall₂.cons hm hts) (by simp) fs rest

def arrayText (ts : List Text) : Text := lbracket :: joined ts ++ [rbracket]

theorem run_elements {ts : List Text} {vs : List Value} (h : List.Forall₂ Whole ts vs)
    (hne : ts ≠ []) (es : List Value) (fs : List Frame) (rest : Text) :
    run ⟨.arr es :: fs, .value⟩ (joined ts ++ rbracket :: rest) =
      run (complete fs (.arr (es ++ vs))) rest := by
  induction h generalizing es with
  | nil => exact absurd rfl hne
  | @cons t v ts vs ht hts ih =>
    cases ts with
    | nil =>
      cases hts
      rw [joined, ht.reads]
      simp [complete, run, step, afterValue, isSpace]
    | cons t' ts =>
      have hcomma : step (complete (.arr es :: fs) v) comma =
          some ⟨.arr (es ++ [v]) :: fs, .value⟩ := by
        simp [complete, step, afterValue, isSpace]
      rw [joined, List.append_assoc, List.cons_append, ht.reads, run, hcomma, Option.bind_some]
      · simpa using ih (by simp) (es ++ [v])
      · simp

/-- At the start of an array an element is read like any value. -/
theorem run_arrStart {c : UInt8} (hs : isSpace c = false) (hc : c ≠ rbracket) (es : List Value)
    (fs : List Frame) (rest : Text) :
    run ⟨.arr es :: fs, .arrStart⟩ (c :: rest) = run ⟨.arr es :: fs, .value⟩ (c :: rest) := by
  simp only [run, step, hs, hc, Bool.false_eq_true, if_false]

theorem whole_arrayText {ts : List Text} {vs : List Value} (h : List.Forall₂ Whole ts vs) :
    Whole (arrayText ts) (.arr vs) := by
  refine ⟨⟨lbracket, _, rfl, by decide, by decide⟩, fun fs rest => ?_⟩
  have hstart : step ⟨fs, .value⟩ lbracket = some ⟨.arr [] :: fs, .arrStart⟩ := by
    simp [step, isSpace, startValue]
  rw [arrayText, List.cons_append, List.cons_append, run, hstart, Option.bind_some,
    List.append_assoc, List.singleton_append]
  cases h with
  | nil => simp [joined, run, step, isSpace]
  | @cons t v ts vs ht hts =>
    obtain ⟨c, u, hcu, hs, hc⟩ := ht.head
    have hjoined : ∃ u', joined (t :: ts) ++ rbracket :: rest = c :: u' := by
      cases ts with
      | nil => exact ⟨_, by rw [joined, hcu, List.cons_append]⟩
      | cons t' ts => exact ⟨_, by rw [joined, hcu, List.cons_append, List.cons_append]; simp⟩
    obtain ⟨u', hu'⟩ := hjoined
    have := run_elements (.cons ht hts) (by simp) [] fs rest
    rw [hu'] at this ⊢
    rw [run_arrStart hs hc, this, List.nil_append]

end json
