-- Tables in text files: a line for each entry of a map, written in any order.
-- A line that is no entry is passed over, and of two lines for one key the
-- later one counts.
import Mathlib.Data.List.Basic
import Mathlib.Data.List.Induction
import Mathlib.Data.List.Nodup
import Mathlib.Logic.Function.Basic

namespace tables

variable {α κ υ : Type*}

section text

variable [DecidableEq α]

/-! ## Lines -/

/-- The lines of a text, as `getline` reads them: behind the last separator there is a line
only when there is some text. -/
def lines (nl : α) : List α → List (List α)
  | [] => []
  | c :: t =>
    if c = nl then [] :: lines nl t
    else match lines nl t with
      | [] => [[c]]
      | l :: ls => (c :: l) :: ls

theorem lines_append {nl : α} {l : List α} (h : nl ∉ l) (t : List α) :
    lines nl (l ++ nl :: t) = l :: lines nl t := by
  induction l with
  | nil => simp [lines]
  | cons c l ih =>
    rw [List.mem_cons, not_or] at h
    rw [List.cons_append, lines, if_neg (Ne.symm h.1), ih h.2]

/-- A text of whole lines is read as these lines. -/
theorem lines_flatMap {nl : α} {ls : List (List α)} (h : ∀ l ∈ ls, nl ∉ l) :
    lines nl (ls.flatMap fun l => l ++ [nl]) = ls := by
  induction ls with
  | nil => rfl
  | cons l ls ih =>
    rw [List.forall_mem_cons] at h
    rw [List.flatMap_cons, List.append_assoc, List.singleton_append, lines_append h.1, ih h.2]

theorem notMem_of_mem_lines {nl : α} {t l : List α} (h : l ∈ lines nl t) : nl ∉ l := by
  induction t generalizing l with
  | nil => cases h
  | cons c t ih =>
    unfold lines at h
    split at h
    · rcases List.mem_cons.mp h with rfl | h
      · simp
      · exact ih h
    · rename_i hc
      have hcons : ∀ {r : List α}, nl ∉ r → nl ∉ c :: r := by
        intro r hr hm
        exact (List.mem_cons.mp hm).elim (fun he => hc he.symm) hr
      split at h
      · rw [List.mem_singleton.mp h]
        exact hcons List.not_mem_nil
      · rename_i r rs hr
        rcases List.mem_cons.mp h with rfl | h
        · exact hcons (ih (hr ▸ List.mem_cons_self))
        · exact ih (hr ▸ List.mem_cons_of_mem _ h)

/-! ## Fields -/

/-- A field has what the text has, less the separator. -/
theorem mem_field {sep x : α} {t f : List α} (h : f ∈ t.splitOn sep) (hx : x ∈ f) :
    x ∈ t ∧ x ≠ sep := by
  induction t generalizing f with
  | nil =>
    rw [List.splitOn_nil, List.mem_singleton] at h
    rw [h] at hx
    cases hx
  | cons c t ih =>
    have hrest : ∀ {g}, g ∈ t.splitOn sep → x ∈ g → x ∈ c :: t ∧ x ≠ sep := fun hg hxg =>
      ⟨List.mem_cons_of_mem c (ih hg hxg).1, (ih hg hxg).2⟩
    rw [List.splitOn_cons_eq_if_modifyHead] at h
    split at h
    · rcases List.mem_cons.mp h with rfl | h
      · cases hx
      · exact hrest h hx
    · rename_i hc
      obtain ⟨r, rs, hr⟩ := List.exists_cons_of_ne_nil (List.splitOn_ne_nil sep t)
      rw [hr, List.modifyHead_cons] at h
      rcases List.mem_cons.mp h with rfl | h
      · rcases List.mem_cons.mp hx with rfl | hx
        · exact ⟨List.mem_cons_self, by simpa using hc⟩
        · exact hrest (hr ▸ List.mem_cons_self) hx
      · exact hrest (hr ▸ List.mem_cons_of_mem _ h) hx

/-- Fields that each end with a separator, and a last one behind them. -/
theorem splitOn_flatMap {sep : α} {fs : List (List α)} {last : List α}
    (h : ∀ f ∈ fs, sep ∉ f) (hlast : sep ∉ last) :
    (fs.flatMap (fun f => f ++ [sep]) ++ last).splitOn sep = fs ++ [last] := by
  induction fs with
  | nil => simpa using List.splitOn_eq_singleton hlast
  | cons f fs ih =>
    rw [List.forall_mem_cons] at h
    rw [List.flatMap_cons, List.append_assoc, List.append_assoc, List.singleton_append,
      List.splitOn_append_cons_self_of_not_mem h.1, ih h.2]
    rfl

end text

/-! ## Maps -/

/-- The entries of a map, in some order. -/
structure Lists (m : κ → Option υ) (es : List (κ × υ)) : Prop where
  nodup : (es.map (·.1)).Nodup
  mem : ∀ k v, (k, v) ∈ es ↔ m k = some v

theorem Lists.nil : Lists (fun _ => none : κ → Option υ) [] :=
  ⟨List.nodup_nil, fun k v => by simp⟩

theorem Lists.filter {m : κ → Option υ} {es : List (κ × υ)} (h : Lists m es)
    (p : κ → υ → Bool) :
    Lists (fun k => (m k).filter (p k)) (es.filter fun e => p e.1 e.2) := by
  refine ⟨h.nodup.sublist (List.filter_sublist.map _), fun k v => ?_⟩
  rw [List.mem_filter, h.mem, Option.filter_eq_some_iff]

variable [DecidableEq κ]

/-- The map of some entries. Of two for one key, the later one counts. -/
def collect (es : List (κ × υ)) : κ → Option υ :=
  es.foldl (fun m e => Function.update m e.1 (some e.2)) fun _ => none

theorem collect_snoc (es : List (κ × υ)) (e : κ × υ) :
    collect (es ++ [e]) = Function.update (collect es) e.1 (some e.2) := by
  simp [collect]

/-- The last entry for a key counts. -/
theorem collect_apply (es : List (κ × υ)) (k : κ) :
    collect es k = (es.filter fun e => e.1 = k).getLast?.map (·.2) := by
  induction es using List.reverseRecOn with
  | nil => rfl
  | append_singleton es e ih =>
    rw [collect_snoc, List.filter_append]
    by_cases hk : e.1 = k
    · subst hk
      simp
    · simp [hk, Function.update_of_ne (Ne.symm hk), ih]

theorem mem_of_collect {es : List (κ × υ)} {k : κ} {v : υ} (h : collect es k = some v) :
    (k, v) ∈ es := by
  rw [collect_apply, Option.map_eq_some_iff] at h
  obtain ⟨⟨k', v'⟩, hlast, rfl⟩ := h
  have hmem := List.mem_of_getLast? hlast
  rw [List.mem_filter, decide_eq_true_eq] at hmem
  obtain ⟨hmem, rfl⟩ := hmem
  exact hmem

/-- The entries of a map give the map, in whatever order they come. -/
theorem Lists.collect_eq {m : κ → Option υ} {es : List (κ × υ)} (h : Lists m es) :
    collect es = m := by
  funext k
  cases hm : m k with
  | none =>
    cases hc : collect es k with
    | none => rfl
    | some v =>
      rw [(h.mem k v).mp (mem_of_collect hc)] at hm
      cases hm
  | some v =>
    have hmem := (h.mem k v).mpr hm
    cases hc : collect es k with
    | none =>
      rw [collect_apply, Option.map_eq_none_iff, List.getLast?_eq_none_iff,
        List.filter_eq_nil_iff] at hc
      exact absurd (decide_eq_true rfl) (hc _ hmem)
    | some w =>
      rw [(h.mem k w).mp (mem_of_collect hc)] at hm
      exact hm

theorem Lists.erase {m : κ → Option υ} {es : List (κ × υ)} (h : Lists m es) (k : κ) :
    Lists (Function.update m k none) (es.filter fun e => e.1 ≠ k) := by
  refine ⟨h.nodup.sublist (List.filter_sublist.map _), fun k' v => ?_⟩
  rw [List.mem_filter, h.mem, decide_eq_true_eq]
  by_cases hk : k' = k
  · subst hk
    simp
  · simp [hk]

theorem Lists.insert {m : κ → Option υ} {es : List (κ × υ)} (h : Lists m es) (k : κ) (v : υ) :
    Lists (Function.update m k (some v)) ((es.filter fun e => e.1 ≠ k) ++ [(k, v)]) := by
  have herase := h.erase k
  refine ⟨?_, fun k' w => ?_⟩
  · rw [List.map_append, List.nodup_append]
    refine ⟨herase.nodup, by simp, fun a ha b hb hab => ?_⟩
    obtain ⟨e, he, rfl⟩ := List.mem_map.mp ha
    rw [List.mem_filter, decide_eq_true_eq] at he
    exact he.2 (hab.trans (by simpa using hb))
  · rw [List.mem_append, herase.mem, List.mem_singleton, Prod.mk.injEq]
    by_cases hk : k' = k
    · subst hk
      simp [eq_comm]
    · simp [hk]

/-- The map of some entries can be written out. -/
theorem exists_lists_collect (es : List (κ × υ)) : ∃ es', Lists (collect es) es' := by
  induction es using List.reverseRecOn with
  | nil => exact ⟨[], .nil⟩
  | append_singleton es e ih =>
    obtain ⟨es', h⟩ := ih
    rw [collect_snoc]
    exact ⟨_, h.insert e.1 e.2⟩

/-! ## Reading a table -/

section read

variable {β : Type*} (parse : β → Option (κ × υ))

/-- One turn of a loop over the lines: a line that is no entry is passed over. -/
def enter (m : κ → Option υ) (l : β) : κ → Option υ :=
  match parse l with
  | none => m
  | some e => Function.update m e.1 (some e.2)

theorem collect_filterMap_snoc (ls : List β) (l : β) :
    collect ((ls ++ [l]).filterMap parse) = enter parse (collect (ls.filterMap parse)) l := by
  rw [List.filterMap_append]
  cases h : parse l with
  | none => simp [enter, h]
  | some e => simp [enter, h, collect_snoc]

theorem foldl_enter (ls : List β) :
    ls.foldl (enter parse) (fun _ => none) = collect (ls.filterMap parse) := by
  induction ls using List.reverseRecOn with
  | nil => rfl
  | append_singleton ls l ih =>
    rw [List.foldl_append, ih, collect_filterMap_snoc]
    rfl

end read

/-- A table with a line for each entry is read as the map of the entries, in whatever order
they were written. -/
theorem collect_table [DecidableEq α] (parse : List α → Option (κ × υ)) {nl : α} {line : κ × υ → List α} {m : κ → Option υ}
    {es : List (κ × υ)} (hes : Lists m es) (hline : ∀ e ∈ es, nl ∉ line e)
    (hparse : ∀ e ∈ es, parse (line e) = some e) :
    collect ((lines nl (es.flatMap fun e => line e ++ [nl])).filterMap parse) = m := by
  have htable : es.flatMap (fun e => line e ++ [nl]) = (es.map line).flatMap fun l => l ++ [nl] := by
    rw [List.flatMap_map]
  have hlines : ∀ l ∈ es.map line, nl ∉ l := by
    intro l hl
    obtain ⟨e, he, rfl⟩ := List.mem_map.mp hl
    exact hline e he
  have hentries : es.filterMap (parse ∘ line) = es.filterMap some := List.filterMap_congr hparse
  rw [htable, lines_flatMap hlines, List.filterMap_map, hentries, List.filterMap_some,
    hes.collect_eq]

end tables
