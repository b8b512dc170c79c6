-- The escapes of the plugin's own JSON texts (`print_job.cpp`).
import BambuFarm.JsonText

open json

namespace bambu_farm_client.print_job

/-- The escape of one byte. Of the control characters it knows three. -/
def escapeByte (c : UInt8) : Text :=
  if c = backslash then [backslash, backslash]
  else if c = quote then [backslash, quote]
  else if c = 0x0A then [backslash, 0x6E]
  else if c = 0x0D then [backslash, 0x72]
  else if c = 0x09 then [backslash, 0x74]
  else [c]

def json_escape (value : Text) : Text := value.flatMap escapeByte

/-- The byte is no control character, or one that `json_escape` knows. -/
def isEscapable (c : UInt8) : Bool := 0x20 ≤ c || c = 0x0A || c = 0x0D || c = 0x09

theorem spells_escapeByte {c : UInt8} (h : isEscapable c = true) : Spells (escapeByte c) [c] := by
  unfold escapeByte
  split_ifs with h1 h2 h3 h4 h5
  · subst h1
    exact spells_escape (by decide) rfl
  · subst h2
    exact spells_escape (by decide) rfl
  · subst h3
    exact spells_escape (by decide) rfl
  · subst h4
    exact spells_escape (by decide) rfl
  · subst h5
    exact spells_escape (by decide) rfl
  · apply spells_byte
    simp only [isEscapable, h3, h4, h5, decide_false, Bool.or_false, decide_eq_true_eq] at h
    simp only [isPlain, h, h1, h2, decide_true, ne_eq, not_false_eq_true, Bool.and_self]

/-- The escaped text spells the text, when no other control character is in it. -/
theorem spells_json_escape {value : Text} (h : value.all isEscapable = true) :
    Spells (json_escape value) value := by
  induction value with
  | nil => exact .nil
  | cons c value ih =>
    simp only [List.all_cons, Bool.and_eq_true] at h
    exact (spells_escapeByte h.1).append (ih h.2)

/-- Any other control character is left in the text, where a string must not have it. -/
theorem run_json_escape_none {value : Text} (h : value.all isEscapable = false)
    (fs : List Frame) (isKey : Bool) (ps : List Piece) (rest : Text) :
    run ⟨fs, .str isKey ps⟩ (json_escape value ++ rest) = none := by
  induction value generalizing ps with
  | nil => cases h
  | cons c value ih =>
    rw [json_escape, List.flatMap_cons, List.append_assoc, run_append]
    by_cases hc : isEscapable c = true
    · rw [spells_escapeByte hc, Option.bind_some]
      simp only [List.all_cons, hc, Bool.true_and] at h
      exact ih h _
    · simp only [isEscapable, Bool.or_eq_true, decide_eq_true_eq, not_or] at hc
      obtain ⟨⟨⟨hl, hn⟩, hr⟩, ht⟩ := hc
      have hlt := UInt8.not_le.mp hl
      have hq : c ≠ quote := by
        rintro rfl
        exact absurd hlt (by decide)
      have hb : c ≠ backslash := by
        rintro rfl
        exact absurd hlt (by decide)
      simp only [escapeByte, hq, hb, hn, hr, ht, if_false, run, step, hlt, if_true,
        Option.bind_none]

end bambu_farm_client.print_job
