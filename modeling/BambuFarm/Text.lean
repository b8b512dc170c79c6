-- The text functions of the Rust standard library that the server uses:
-- `trim` takes the Unicode white space off both ends.
import Mathlib.Data.List.DropRight

namespace text

/-- `char::is_whitespace`: the characters with the property `White_Space`. -/
def isWhitespace (c : Char) : Bool :=
  let n := c.toNat
  (0x09 ≤ n && n ≤ 0x0d) || n = 0x20 || n = 0x85 || n = 0xa0 || n = 0x1680 ||
    (0x2000 ≤ n && n ≤ 0x200a) || n = 0x2028 || n = 0x2029 || n = 0x202f || n = 0x205f || n = 0x3000

/-- `str::trim`. -/
def trim (s : String) : String :=
  String.ofList ((s.toList.dropWhile isWhitespace).rdropWhile isWhitespace)

/-- `s.trim().is_empty()`. -/
def isBlank (s : String) : Bool := trim s = ""

/-- What `dropWhile` leaves does not start with what it drops, and neither does a prefix
of it. -/
theorem dropWhile_of_prefix_dropWhile {α : Type*} (p : α → Bool) (l l' : List α)
    (h : l' <+: l.dropWhile p) : l'.dropWhile p = l' := by
  cases l' with
  | nil => rfl
  | cons x xs =>
    obtain ⟨t, ht⟩ := h
    have hx : (l.dropWhile p).head? = some x := by rw [← ht]; rfl
    have hp : p x = false := by
      have := List.head?_dropWhile_not p l
      rw [hx] at this
      simpa using this
    rw [List.dropWhile_cons_of_neg (by simp [hp])]

@[simp] theorem trim_trim (s : String) : trim (trim s) = trim s := by
  unfold trim
  rw [String.toList_ofList, dropWhile_of_prefix_dropWhile _ s.toList _ (List.rdropWhile_prefix _ _),
    List.rdropWhile_idempotent]

/-- A text that neither starts nor ends with white space stays as it is. -/
theorem trim_of_ends {s : String} {a b : Char} (ha : s.toList.head? = some a)
    (hb : s.toList.getLast? = some b) (hwa : isWhitespace a = false)
    (hwb : isWhitespace b = false) : trim s = s := by
  obtain ⟨t, ht⟩ := List.head?_eq_some_iff.mp ha
  obtain ⟨u, hu⟩ := List.getLast?_eq_some_iff.mp hb
  have hdrop : s.toList.dropWhile isWhitespace = s.toList := by
    rw [ht, List.dropWhile_cons_of_neg (by simp [hwa])]
  rw [trim, hdrop, hu, List.rdropWhile_concat_neg _ _ _ (by simp [hwb]), ← hu, String.ofList_toList]

theorem isBlank_iff (s : String) : isBlank s = true ↔ ∀ c ∈ s.toList, isWhitespace c = true := by
  have hlist : trim s = "" ↔
      (s.toList.dropWhile isWhitespace).rdropWhile isWhitespace = [] := by
    rw [← String.toList_inj]
    simp [trim]
  simp only [isBlank, decide_eq_true_eq, hlist, List.rdropWhile_eq_nil_iff]
  constructor
  · intro h
    rw [← List.dropWhile_eq_nil_iff]
    cases hd : s.toList.dropWhile isWhitespace with
    | nil => rfl
    | cons c cs =>
      have hne : s.toList.dropWhile isWhitespace ≠ [] := by simp [hd]
      have hhead := List.head_dropWhile_not isWhitespace hne
      rw [h _ (List.head_mem hne)] at hhead
      cases hhead
  · intro h c hc
    exact h c ((List.dropWhile_sublist _).subset hc)

theorem not_isBlank_of_mem {s : String} {c : Char} (hc : c ∈ s.toList)
    (hw : isWhitespace c = false) : isBlank s = false := by
  rw [← Bool.not_eq_true, isBlank_iff]
  intro h
  rw [h c hc] at hw
  cases hw

end text
