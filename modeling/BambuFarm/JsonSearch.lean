-- The search for a member in the text of an object without spaces, by the
-- text of its key: what a regular expression `"key":([0-9]+)` or
-- `"key":"([^"]*)"` finds first. Whatever the strings of the object hold, such
-- a search finds a member and nothing inside of a string.
import BambuFarm.JsonText
import BambuFarm.Search

namespace json

/-! ## The searches -/

def keyPattern (key : Text) : Text := quote :: key ++ [quote, colon]

/-- The digits behind the key, when the text starts with the key. -/
def matchInteger (key t : Text) : Option Text :=
  if (keyPattern key).isPrefixOf t then
    match (t.drop (keyPattern key).length).takeWhile isDigit with
    | [] => none
    | ds => some ds
  else none

/-- The first digits behind the key. -/
def searchInteger (key : Text) : Text → Option Text
  | [] => none
  | c :: t => (matchInteger key (c :: t)).or (searchInteger key t)

/-- The text up to the next quote, when the text starts with the key and a quote, and
there is a next quote. -/
def matchString (key t : Text) : Option Text :=
  if (keyPattern key ++ [quote]).isPrefixOf t then
    let rest := t.drop (keyPattern key ++ [quote]).length
    if quote ∈ rest then some (rest.takeWhile (· ≠ quote)) else none
  else none

def searchString (key : Text) : Text → Option Text
  | [] => none
  | c :: t => (matchString key (c :: t)).or (searchString key t)

/-- What the search for a string finds is a part of the text. -/
theorem searchString_subset {key t s : Text} (h : searchString key t = some s) : s ⊆ t := by
  induction t with
  | nil => cases h
  | cons c t ih =>
    simp only [searchString, Option.or_eq_some_iff] at h
    rcases h with h | ⟨-, h⟩
    · unfold matchString at h
      dsimp only at h
      split_ifs at h
      cases h
      exact fun x hx => List.mem_of_mem_drop (List.takeWhile_subset _ hx)
    · exact fun x hx => List.mem_cons_of_mem _ (ih h hx)

/-! ## Where nothing is found -/

/-- The bytes of the keys that are searched for. -/
def isKeyByte (c : UInt8) : Bool := 0x61 ≤ c && c ≤ 0x7A || isDigit c || c = 0x5F

/-- The text ends, or goes on behind a value. -/
def Delimited (rest : Text) : Prop := ∀ c, rest.head? = some c → c = comma ∨ c = rbrace

theorem Delimited.ne_colon {rest : Text} (h : Delimited rest) : rest.head? ≠ some colon := by
  intro hc
  rcases h _ hc with hcomma | hrbrace
  · exact absurd hcomma (by decide)
  · exact absurd hrbrace (by decide)

theorem delimited_comma (t : Text) : Delimited (comma :: t) := by
  intro c h
  simp only [List.head?_cons, Option.some.injEq] at h
  exact Or.inl h.symm

theorem delimited_rbrace (t : Text) : Delimited (rbrace :: t) := by
  intro c h
  simp only [List.head?_cons, Option.some.injEq] at h
  exact Or.inr h.symm

theorem delimited_nil : Delimited [] := by
  intro c h
  cases h

/-- A text between two quotes in which each quote is escaped. -/
inductive Escaped : Text → Prop
  | nil : Escaped []
  | plain {c : UInt8} {t : Text} : c ≠ quote → c ≠ backslash → Escaped t → Escaped (c :: t)
  | escape {c : UInt8} {t : Text} : Escaped t → Escaped (backslash :: c :: t)

theorem escaped_append {t u : Text} (ht : Escaped t) (hu : Escaped u) : Escaped (t ++ u) := by
  induction ht with
  | nil => exact hu
  | plain hq hb _ ih => exact .plain hq hb ih
  | escape _ ih => exact .escape ih

theorem escaped_of_plain {t : Text} (h : t.all isPlain = true) : Escaped t := by
  induction t with
  | nil => exact .nil
  | cons c t ih =>
    simp only [List.all_cons, Bool.and_eq_true] at h
    have hc := h.1
    simp only [isPlain, Bool.and_eq_true, decide_eq_true_eq] at hc
    exact .plain hc.1.2 hc.2 (ih h.2)

/-! ## The first match -/

/-- The match at the first place where there is one. -/
def searchFirst (m : Text → Option Text) : Text → Option Text
  | [] => none
  | c :: t => (m (c :: t)).or (searchFirst m t)

theorem searchInteger_eq (key t : Text) :
    searchInteger key t = searchFirst (matchInteger key) t := by
  induction t with
  | nil => rfl
  | cons c t ih => rw [searchInteger, searchFirst, ih]

theorem searchString_eq (key t : Text) : searchString key t = searchFirst (matchString key) t := by
  induction t with
  | nil => rfl
  | cons c t ih => rw [searchString, searchFirst, ih]

/-- A match of a member with the key starts with the key. -/
def Keyed (key : Text) (m : Text → Option Text) : Prop :=
  ∀ t, ¬ keyPattern key <+: t → m t = none

theorem keyed_matchInteger (key : Text) : Keyed key (matchInteger key) := by
  intro t h
  unfold matchInteger
  rw [if_neg]
  rwa [List.isPrefixOf_iff_prefix]

theorem keyed_matchString (key : Text) : Keyed key (matchString key) := by
  intro t h
  unfold matchString
  rw [if_neg]
  rw [List.isPrefixOf_iff_prefix]
  exact fun hp => h ((List.prefix_append _ _).trans hp)

theorem search_skip {m : Text → Option Text} {c : UInt8} {t : Text} (h : m (c :: t) = none) :
    searchFirst m (c :: t) = searchFirst m t := by
  simp [searchFirst, h]

theorem search_match {m : Text → Option Text} {c : UInt8} {t ds : Text}
    (h : m (c :: t) = some ds) : searchFirst m (c :: t) = some ds := by
  simp [searchFirst, h]

namespace Keyed

variable {key : Text} {m : Text → Option Text} (hm : Keyed key m)

include hm

theorem quote {t : Text} (h : ¬ key ++ [quote, colon] <+: t) : m (json.quote :: t) = none := by
  apply hm
  unfold keyPattern
  rw [List.cons_append, List.cons_prefix_cons]
  exact fun hp => h hp.2

theorem search_cons {c : UInt8} (h : c ≠ json.quote) (t : Text) :
    searchFirst m (c :: t) = searchFirst m t := by
  apply search_skip
  apply hm
  unfold keyPattern
  rw [List.cons_append, List.cons_prefix_cons]
  exact fun hp => h hp.1.symm

/-- Nothing is found in a text without quotes. -/
theorem search_append {u : Text} (h : json.quote ∉ u) (rest : Text) :
    searchFirst m (u ++ rest) = searchFirst m rest := by
  induction u with
  | nil => rfl
  | cons c u ih =>
    rw [List.mem_cons, not_or] at h
    rw [List.cons_append, hm.search_cons (Ne.symm h.1), ih h.2]

end Keyed

section key

variable {key : Text} (hkey : key.all isKeyByte = true) (hne : key ≠ [])

include hkey in
theorem key_not_special {c : UInt8} (hc : c ∈ key) :
    c ≠ quote ∧ c ≠ backslash ∧ c ≠ colon ∧ c ≠ comma ∧ c ≠ rbrace := by
  have h := List.all_eq_true.mp hkey c hc
  refine ⟨?_, ?_, ?_, ?_, ?_⟩
  all_goals
    rintro rfl
    revert h
    decide

include hkey in
/-- From inside of a string, the key cannot be read up to a colon: the next quote that is
not escaped ends the string. -/
theorem blocked {e rest : Text} (he : Escaped e) (hr : rest.head? ≠ some colon) :
    ¬ key ++ [quote, colon] <+: e ++ quote :: rest := by
  induction key generalizing e with
  | nil =>
    cases he with
    | nil =>
      simp only [List.nil_append, List.cons_prefix_cons, true_and]
      intro hp
      cases rest with
      | nil => simp at hp
      | cons c rest => exact hr (by rw [(List.cons_prefix_cons.mp hp).1]; rfl)
    | plain hq _ _ =>
      simp only [List.nil_append, List.cons_append, List.cons_prefix_cons]
      exact fun hp => hq hp.1.symm
    | escape _ => simp
  | cons k key ih =>
    have hk := key_not_special hkey List.mem_cons_self
    simp only [List.all_cons, Bool.and_eq_true] at hkey
    cases he with
    | nil =>
      simp only [List.cons_append, List.nil_append, List.cons_prefix_cons]
      exact fun hp => hk.1 hp.1
    | plain _ _ ht =>
      simp only [List.cons_append, List.cons_prefix_cons]
      exact fun hp => ih hkey.2 ht hp.2
    | escape _ =>
      simp only [List.cons_append, List.cons_prefix_cons]
      exact fun hp => hk.2.1 hp.1

variable {m : Text → Option Text} (hm : Keyed key m)

include hm hkey in
theorem Keyed.search_escaped {e rest : Text} (he : Escaped e) (hr : Delimited rest) :
    searchFirst m (e ++ json.quote :: rest) = searchFirst m (json.quote :: rest) := by
  induction he with
  | nil => rfl
  | plain hq _ _ ih => rw [List.cons_append, hm.search_cons hq, ih]
  | @escape c t ht ih =>
    rw [List.cons_append, hm.search_cons (by simp), List.cons_append]
    by_cases hc : c = json.quote
    · subst hc
      rw [search_skip (hm.quote (blocked hkey ht hr.ne_colon)), ih]
    · rw [hm.search_cons hc, ih]

include hm hkey hne in
/-- The quote at the end of a string starts no key. -/
theorem Keyed.search_endQuote {c : UInt8} {rest : Text}
    (hc : c = colon ∨ c = comma ∨ c = rbrace) :
    searchFirst m (json.quote :: c :: rest) = searchFirst m (c :: rest) := by
  apply search_skip
  apply hm.quote
  obtain ⟨k, ks, rfl⟩ := List.exists_cons_of_ne_nil hne
  have hk := key_not_special hkey List.mem_cons_self
  rw [List.cons_append, List.cons_prefix_cons]
  rintro ⟨rfl, -⟩
  rcases hc with h | h | h
  · exact hk.2.2.1 h
  · exact hk.2.2.2.1 h
  · exact hk.2.2.2.2 h

end key

/-- A key is matched whole. -/
theorem prefix_key {k key rest : Text} (hk : quote ∉ k) (hkey : quote ∉ key)
    (h : key ++ [quote, colon] <+: k ++ quote :: rest) : key = k := by
  induction key generalizing k with
  | nil =>
    cases k with
    | nil => rfl
    | cons c k =>
      simp only [List.nil_append, List.cons_append, List.cons_prefix_cons] at h
      exact absurd (List.mem_cons.mpr (Or.inl h.1)) hk
  | cons d key ih =>
    cases k with
    | nil =>
      simp only [List.cons_append, List.nil_append, List.cons_prefix_cons] at h
      exact absurd (List.mem_cons.mpr (Or.inl h.1.symm)) hkey
    | cons c k =>
      simp only [List.cons_append, List.cons_prefix_cons] at h
      simp only [List.mem_cons, not_or] at hk hkey
      rw [h.1, ih hk.2 hkey.2 h.2]

/-! ## Where a key does not start -/

/-- The text ends, or goes on behind a member, perhaps after spaces. -/
def Behind (rest : Text) : Prop :=
  ∀ c, rest.head? = some c → isSpace c = true ∨ c = comma ∨ c = rbrace

theorem Behind.ne_colon {rest : Text} (h : Behind rest) : rest.head? ≠ some colon := by
  intro hc
  rcases h _ hc with hspace | hcomma | hrbrace
  · exact absurd hspace (by decide)
  · exact absurd hcomma (by decide)
  · exact absurd hrbrace (by decide)

theorem keyPattern_starts {key t : Text} {c : UInt8} :
    keyPattern key <+: c :: t ↔ c = quote ∧ key ++ [quote, colon] <+: t := by
  rw [keyPattern, List.cons_append, List.cons_prefix_cons, eq_comm]

section places

open search

variable {key : Text} (hkey : key.all isKeyByte = true) (hne : key ≠ [])

include hkey hne

/-- No key starts at the quote that ends a string. -/
theorem not_key_behind {rest : Text} (hr : Behind rest) : ¬ key ++ [quote, colon] <+: rest := by
  obtain ⟨k, ks, rfl⟩ := List.exists_cons_of_ne_nil hne
  have hk : isKeyByte k = true := List.all_eq_true.mp hkey k List.mem_cons_self
  intro hp
  cases rest with
  | nil => exact absurd hp.length_le (by simp)
  | cons c rest =>
    rw [List.cons_append] at hp
    obtain ⟨rfl, -⟩ := List.cons_prefix_cons.mp hp
    rcases hr k rfl with hspace | rfl | rfl
    · simp only [isSpace, Bool.or_eq_true, decide_eq_true_eq] at hspace
      rcases hspace with ((rfl | rfl) | rfl) | rfl <;> exact absurd hk (by decide)
    · exact absurd hk (by decide)
    · exact absurd hk (by decide)

/-- No key starts in a string, whatever the string holds. -/
theorem misses_string {e rest : Text} (he : Escaped e) (hr : Behind rest) :
    Misses (keyPattern key) (quote :: e ++ [quote]) rest := by
  rw [List.cons_append, Misses, List.append_assoc]
  refine ⟨fun hp => blocked hkey he hr.ne_colon (keyPattern_starts.mp hp).2, ?_⟩
  induction he with
  | nil => exact ⟨fun hp => not_key_behind hkey hne hr (keyPattern_starts.mp hp).2, trivial⟩
  | plain hq _ _ ih =>
    rw [List.cons_append, Misses]
    exact ⟨fun hp => hq (keyPattern_starts.mp hp).1, ih⟩
  | @escape c t ht ih =>
    rw [List.cons_append, List.cons_append, Misses, Misses, List.append_assoc]
    refine ⟨fun hp => absurd (keyPattern_starts.mp hp).1 (by decide), fun hp => ?_, ih⟩
    exact blocked hkey ht hr.ne_colon (keyPattern_starts.mp hp).2

/-- No key starts in a member behind its first quote. -/
theorem misses_member {k e rest : Text} (hk : quote ∉ k) (he : Escaped e) (hr : Behind rest) :
    Misses (keyPattern key) (k ++ ([quote, colon, 0x20] ++ (quote :: e ++ [quote]))) rest := by
  have hhead : (keyPattern key).head? = some quote := rfl
  rw [misses_append, misses_append]
  refine ⟨misses_of_notMem hhead hk _, ⟨fun hp => ?_, ?_⟩, misses_string hkey hne he hr⟩
  · obtain ⟨c, ks, rfl⟩ := List.exists_cons_of_ne_nil hne
    have hc := key_not_special hkey List.mem_cons_self
    rw [keyPattern_starts, List.cons_append] at hp
    exact hc.2.2.1 (List.cons_prefix_cons.mp hp.2).1
  · exact misses_of_notMem (a := [colon, 0x20]) hhead (by decide) _

/-- Another key does not start in a member at all. -/
theorem misses_other_member {k e rest : Text} (hk : quote ∉ k) (hdiff : key ≠ k) (he : Escaped e)
    (hr : Behind rest) :
    Misses (keyPattern key) (quote :: (k ++ ([quote, colon, 0x20] ++ (quote :: e ++ [quote]))))
      rest := by
  have hq : quote ∉ key := fun hmem => (key_not_special hkey hmem).1 rfl
  rw [Misses, List.append_assoc]
  exact ⟨fun hp => hdiff (prefix_key hk hq (keyPattern_starts.mp hp).2),
    misses_member hkey hne hk he hr⟩

end places

/-! ## What is found in an object -/

/-- Nothing is found in the text. -/
def Passes (m : Text → Option Text) (u : Text) : Prop :=
  ∀ rest, Delimited rest → searchFirst m (u ++ rest) = searchFirst m rest

/-- `ds` is found in the text. -/
def Yields (m : Text → Option Text) (u ds : Text) : Prop :=
  ∀ rest, Delimited rest → searchFirst m (u ++ rest) = some ds

/-- The search for `key` passes over a member with the key `k`. -/
def PassesOver (key k : Text) : Prop :=
  key.all isKeyByte = true ∧ key ≠ [] ∧ quote ∉ k ∧ k ≠ key

instance (key k : Text) : Decidable (PassesOver key k) := inferInstanceAs (Decidable (_ ∧ _))

namespace Keyed

variable {key : Text} {m : Text → Option Text} (hm : Keyed key m)

include hm

theorem passes_of_no_quote {u : Text} (h : json.quote ∉ u) : Passes m u :=
  fun rest _ => hm.search_append h rest

theorem passes_string {e : Text} (hkey : key.all isKeyByte = true) (hne : key ≠ [])
    (he : Escaped e) : Passes m (json.quote :: e ++ [json.quote]) := by
  intro rest hr
  rw [List.append_assoc, List.singleton_append, List.cons_append,
    search_skip (hm.quote (blocked hkey he hr.ne_colon)), hm.search_escaped hkey he hr]
  cases rest with
  | nil =>
    apply search_skip
    apply hm
    intro hp
    have hlength := hp.length_le
    simp [keyPattern] at hlength
  | cons c rest => exact hm.search_endQuote hkey hne (Or.inr (hr c rfl))

theorem search_member {k : Text} (h : PassesOver key k) (t rest : Text) :
    searchFirst m (memberText k t ++ rest) = searchFirst m (t ++ rest) := by
  obtain ⟨hkey, hne, hk, hdiff⟩ := h
  have hq : json.quote ∉ key := fun hmem => (key_not_special hkey hmem).1 rfl
  have hno : ¬ key ++ [json.quote, colon] <+: k ++ json.quote :: colon :: (t ++ rest) :=
    fun hp => hdiff (prefix_key hk hq hp).symm
  have htext : memberText k t ++ rest =
      json.quote :: (k ++ json.quote :: colon :: (t ++ rest)) := by simp [memberText]
  rw [htext, search_skip (hm.quote hno), hm.search_append hk,
    hm.search_endQuote hkey hne (Or.inl rfl), hm.search_cons (by simp)]

theorem passes_member {k t : Text} (h : PassesOver key k) (ht : Passes m t) :
    Passes m (memberText k t) := by
  intro rest hr
  rw [hm.search_member h, ht rest hr]

theorem yields_in_member {k t ds : Text} (h : PassesOver key k) (ht : Yields m t ds) :
    Yields m (memberText k t) ds := by
  intro rest hr
  rw [hm.search_member h, ht rest hr]

theorem yields_joined {ds : Text} {us : List Text}
    (h : ∀ u ∈ us, Passes m u ∨ Yields m u ds) (hex : ∃ u ∈ us, Yields m u ds) :
    Yields m (joined us) ds := by
  induction us with
  | nil => simp at hex
  | cons u us ih =>
    intro rest hr
    cases us with
    | nil =>
      obtain ⟨u', hu', hf⟩ := hex
      rw [List.mem_singleton] at hu'
      subst hu'
      exact hf rest hr
    | cons u' us =>
      simp only [joined, List.append_assoc, List.cons_append]
      rcases h u List.mem_cons_self with hq | hf
      · rw [hq _ (delimited_comma _), hm.search_cons (by simp)]
        by_cases hfu : Yields m u ds
        · have hfound := hfu _ (delimited_comma (joined (u' :: us) ++ rest))
          rwa [hq _ (delimited_comma _), hm.search_cons (by simp)] at hfound
        · refine ih (fun x hx => h x (List.mem_cons_of_mem _ hx)) ?_ rest hr
          obtain ⟨x, hx, hfx⟩ := hex
          rcases List.mem_cons.mp hx with rfl | hx
          · exact absurd hfx hfu
          · exact ⟨x, hx, hfx⟩
      · exact hf _ (delimited_comma _)

theorem passes_joined {us : List Text} (h : ∀ u ∈ us, Passes m u) : Passes m (joined us) := by
  induction us with
  | nil => exact fun rest _ => rfl
  | cons u us ih =>
    intro rest hr
    have hus := ih fun x hx => h x (List.mem_cons_of_mem _ hx)
    cases us with
    | nil => exact h u List.mem_cons_self rest hr
    | cons u' us =>
      simp only [joined, List.append_assoc, List.cons_append]
      rw [h u List.mem_cons_self _ (delimited_comma _), hm.search_cons (by simp)]
      exact hus rest hr

theorem search_object (ts : List (Text × Text)) (rest : Text) :
    searchFirst m (objectText ts ++ rest) =
      searchFirst m (joined (ts.map fun x => memberText x.1 x.2) ++ rbrace :: rest) := by
  have htext : objectText ts ++ rest =
      [lbrace] ++ (joined (ts.map fun x => memberText x.1 x.2) ++ rbrace :: rest) := by
    simp [objectText]
  rw [htext, hm.search_append (by simp)]

theorem yields_object {ds : Text} {ts : List (Text × Text)}
    (h : ∀ x ∈ ts, Passes m (memberText x.1 x.2) ∨ Yields m (memberText x.1 x.2) ds)
    (hex : ∃ x ∈ ts, Yields m (memberText x.1 x.2) ds) : Yields m (objectText ts) ds := by
  intro rest _
  rw [hm.search_object]
  refine hm.yields_joined ?_ ?_ _ (delimited_rbrace rest)
  · rintro u hu
    obtain ⟨x, hx, rfl⟩ := List.mem_map.mp hu
    exact h x hx
  · obtain ⟨x, hx, hf⟩ := hex
    exact ⟨_, List.mem_map_of_mem hx, hf⟩

theorem passes_object {ts : List (Text × Text)} (h : ∀ x ∈ ts, Passes m (memberText x.1 x.2)) :
    Passes m (objectText ts) := by
  intro rest _
  have hus : ∀ u ∈ ts.map (fun x => memberText x.1 x.2), Passes m u := by
    rintro u hu
    obtain ⟨x, hx, rfl⟩ := List.mem_map.mp hu
    exact h x hx
  rw [hm.search_object, hm.passes_joined hus _ (delimited_rbrace rest),
    hm.search_cons (by simp)]

end Keyed

/-- A number is found behind its key. -/
theorem yields_integer_member {key ds : Text} (hds : ds.all isDigit = true) (hne : ds ≠ []) :
    Yields (matchInteger key) (memberText key ds) ds := by
  intro rest hr
  have htext : memberText key ds ++ rest = keyPattern key ++ (ds ++ rest) := by
    simp [memberText, keyPattern]
  have htake : (ds ++ rest).takeWhile isDigit = ds := by
    rw [List.takeWhile_append_of_pos (List.all_eq_true.mp hds)]
    cases rest with
    | nil => simp
    | cons c rest =>
      have hc : isDigit c = false := by rcases hr c rfl with rfl | rfl <;> decide
      simp [hc]
  have hmatch : matchInteger key (keyPattern key ++ (ds ++ rest)) = some ds := by
    simp only [matchInteger, List.isPrefixOf_iff_prefix, List.prefix_append, if_true,
      List.drop_left, htake]
  rw [htext]
  exact search_match hmatch

/-- Of a string behind its key the part before its first quote is found, also where that
quote is escaped. -/
theorem yields_string_member (key e : Text) :
    Yields (matchString key) (memberText key (quote :: e ++ [quote]))
      (e.takeWhile fun c => c ≠ quote) := by
  intro rest _
  have htext : memberText key (quote :: e ++ [quote]) ++ rest =
      keyPattern key ++ [quote] ++ (e ++ quote :: rest) := by
    simp [memberText, keyPattern]
  have htake : (e ++ quote :: rest).takeWhile (fun c => c ≠ quote) =
      e.takeWhile fun c => c ≠ quote := by
    rw [List.takeWhile_append]
    split
    · rename_i hall
      rw [List.takeWhile_cons_of_neg (by simp), List.append_nil]
      exact ((List.takeWhile_prefix _).eq_of_length hall).symm
    · rfl
  have hmatch : matchString key (keyPattern key ++ [quote] ++ (e ++ quote :: rest)) =
      some (e.takeWhile fun c => c ≠ quote) := by
    unfold matchString
    dsimp only
    rw [if_pos (List.isPrefixOf_iff_prefix.mpr (List.prefix_append _ _)), List.drop_left,
      if_pos (by simp), htake]
  rw [htext]
  exact search_match hmatch

/-! ## Numbers in an object -/

/-- The search for a number finds nothing in the text. -/
def Quiet (key u : Text) : Prop :=
  ∀ rest, Delimited rest → searchInteger key (u ++ rest) = searchInteger key rest

/-- The digits are found in the text. -/
def Finds (key u ds : Text) : Prop :=
  ∀ rest, Delimited rest → searchInteger key (u ++ rest) = some ds

theorem quiet_iff {key u : Text} : Quiet key u ↔ Passes (matchInteger key) u := by
  simp only [Quiet, Passes, searchInteger_eq]

theorem finds_iff {key u ds : Text} : Finds key u ds ↔ Yields (matchInteger key) u ds := by
  simp only [Finds, Yields, searchInteger_eq]

end json
