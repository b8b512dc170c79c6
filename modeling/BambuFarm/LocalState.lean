-- The print contexts of the plugin on disk (`local_state.cpp`): a line for each
-- device, with the fields between tabs. The store writes the whole file after
-- each change and reads it at the next start.
import BambuFarm.LocalPrintContext
import BambuFarm.RemoteNames
import BambuFarm.Runs
import BambuFarm.Tables

open json search tables runs
open bambu_farm_client.print_job

namespace bambu_farm_client.local_state

/-! ## The file -/

def tab : UInt8 := 0x09

def newline : UInt8 := 0x0A

structure LocalPrintContext extends local_print_context.LocalPrintContext where
  dev_id : Text
  remote_filename : Text
  plate_path : Text
  thumbnail_url : Text
  plate_index : Int32

abbrev Contexts := Text → Option LocalPrintContext

/-- A number as a stream writes it. -/
def int_text (n : Int) : Text := if n < 0 then 0x2D :: decimal n.natAbs else decimal n.natAbs

/-- `std::stoi`: what is behind the digits is left unread, and a number that is no `int`
is an exception. -/
def stoi (value : Text) : Option Int32 :=
  let value := value.dropWhile isspace
  let negative : Bool := value.head? = some 0x2D
  let value := if negative || value.head? = some 0x2B then value.drop 1 else value
  let digits := value.takeWhile isDigit
  let n : Nat := digits.foldl (fun n c => 10 * n + (c.toNat - 0x30)) 0
  let n : Int := if negative then -n else n
  if digits = [] then none
  else if n < -2 ^ 31 || 2 ^ 31 ≤ n then none
  else some (Int32.ofInt n)

/-- The texts of a context, in the order of the file. -/
def texts (context : LocalPrintContext) : List Text :=
  [context.dev_id, context.project_id, context.profile_id, context.subtask_id, context.task_id,
    context.remote_filename, context.plate_path, context.thumbnail_url]

def context_line (context : LocalPrintContext) : Text :=
  ((texts context).flatMap fun t => t ++ [tab]) ++ int_text context.plate_index.toInt

/-- The entries come in the order of the hash map. -/
def persist_local_print_contexts (contexts : List (Text × LocalPrintContext)) : Text :=
  contexts.flatMap fun e =>
    if !e.2.active || e.1 = [] then [] else context_line e.2 ++ [newline]

/-- The loop over the tabs of a line. -/
def fields (line : Text) (start : Nat) : List Text :=
  match _h : find line [tab] start with
  | none => [line.drop start]
  | some t => (line.drop start).take (t - start) :: fields line (t + 1)
termination_by line.length - start
decreasing_by
  have hlen := congrArg List.length (find_cut _h).1
  have hle := (find_some _h).1
  simp only [List.length_append, List.length_take, List.length_cons, List.length_drop] at hlen
  omega

/-- The context of a line, with its key. -/
def parse_line (line : Text) : Option (Text × LocalPrintContext) :=
  match fields line 0 with
  | [dev_id, project_id, profile_id, subtask_id, task_id, remote_filename, plate_path,
      thumbnail_url, plate_index] =>
    if dev_id = [] then none
    else some (dev_id, {
      dev_id := dev_id
      project_id := project_id
      profile_id := profile_id
      subtask_id := subtask_id
      task_id := task_id
      remote_filename := remote_filename
      plate_path := plate_path
      thumbnail_url := thumbnail_url
      plate_index := (stoi plate_index).getD 0
      active := true })
  | _ => none

/-- No file is read as no contexts. -/
def load_local_print_contexts : Option Text → Contexts
  | none => fun _ => none
  | some content => (lines newline content).foldl (enter parse_line) fun _ => none

/-! ## The laws of the file -/

/-- The text stays in its field. -/
def Plain (t : Text) : Prop := tab ∉ t ∧ newline ∉ t

instance (t : Text) : Decidable (Plain t) := inferInstanceAs (Decidable (_ ∧ _))

/-- A context that the file can hold. -/
structure Lasting (dev_id : Text) (context : LocalPrintContext) : Prop where
  nonempty : dev_id ≠ []
  key : context.dev_id = dev_id
  active : context.active = true
  plain : ∀ t ∈ texts context, Plain t

def AllLasting (contexts : Contexts) : Prop :=
  ∀ dev_id context, contexts dev_id = some context → Lasting dev_id context

/-! ## Numbers -/

theorem isDigit_not_isspace {c : UInt8} (h : isDigit c = true) : isspace c = false := by
  obtain ⟨hl, hu⟩ := isDigit_le h
  rw [UInt8.le_iff_toNat_le] at hl hu
  have hc : c ≠ 0x20 := by
    rintro rfl
    exact absurd hl (by decide)
  have hlt : ¬ c ≤ 0x0D := by
    rw [UInt8.le_iff_toNat_le]
    simp only [UInt8.reduceToNat] at hl ⊢
    omega
  simp [isspace, hc, hlt]

theorem takeWhile_decimal (n : Nat) : (decimal n).takeWhile isDigit = decimal n := by
  rw [List.takeWhile_eq_self_iff]
  exact List.all_eq_true.mp (digits_decimal n)

/-- The number that is read is the number that was written. -/
theorem stoi_int_text (n : Int32) : stoi (int_text n.toInt) = some n := by
  have hl := Int32.le_toInt n
  have hu := Int32.toInt_lt n
  obtain ⟨c, rest, hd⟩ := List.exists_cons_of_ne_nil (decimal_ne_nil n.toInt.natAbs)
  have hc : isDigit c = true := by
    have := digits_decimal n.toInt.natAbs
    rw [hd, List.all_cons, Bool.and_eq_true] at this
    exact this.1
  have hval := digits_value n.toInt.natAbs
  have htake := takeWhile_decimal n.toInt.natAbs
  unfold int_text stoi
  by_cases hneg : n.toInt < 0
  · rw [if_pos hneg, List.dropWhile_cons_of_neg (by decide)]
    simp only [List.head?_cons, decide_true, Bool.true_or, if_true, List.drop_succ_cons,
      List.drop_zero, htake, hval]
    rw [if_neg (decimal_ne_nil _), show -(n.toInt.natAbs : Int) = n.toInt by omega, if_neg,
      Int32.ofInt_toInt]
    simp
    omega
  · have hdash : c ≠ 0x2D := by
      rintro rfl
      cases hc
    have hplus : c ≠ 0x2B := by
      rintro rfl
      cases hc
    rw [if_neg hneg]
    have hspace : (decimal n.toInt.natAbs).dropWhile isspace = decimal n.toInt.natAbs := by
      rw [hd, List.dropWhile_cons_of_neg (by simp [isDigit_not_isspace hc])]
    have hhead : (decimal n.toInt.natAbs).head? = some c := by rw [hd]; rfl
    simp only [hspace, hhead, Option.some.injEq, hdash, hplus, decide_false, Bool.or_self,
      Bool.false_eq_true, if_false, htake, hval]
    rw [if_neg (decimal_ne_nil _), show (n.toInt.natAbs : Int) = n.toInt by omega, if_neg,
      Int32.ofInt_toInt]
    simp
    omega

theorem plain_append {a b : Text} (ha : Plain a) (hb : Plain b) : Plain (a ++ b) :=
  ⟨fun h => (List.mem_append.mp h).elim ha.1 hb.1, fun h => (List.mem_append.mp h).elim ha.2 hb.2⟩

theorem plain_decimal (n : Nat) : Plain (decimal n) := by
  have hdigit : ∀ c ∈ decimal n, 0x30 ≤ c := fun c hc =>
    (isDigit_le (List.all_eq_true.mp (digits_decimal n) c hc)).1
  exact ⟨fun h => absurd (hdigit _ h) (by decide), fun h => absurd (hdigit _ h) (by decide)⟩

theorem plain_int_text (n : Int) : Plain (int_text n) := by
  unfold int_text
  split
  · exact plain_append (a := [0x2D]) (by decide) (plain_decimal _)
  · exact plain_decimal _

/-! ## Lines -/

theorem fields_eq (line : Text) (start : Nat) :
    fields line start = (line.drop start).splitOn tab := by
  induction start using fields.induct line with
  | case1 start h =>
    have hmem : tab ∉ line.drop start := by
      rw [find_eq_none_iff] at h
      rwa [← List.singleton_infix_iff]
    rw [fields, List.splitOn_eq_singleton hmem]
    split
    · rfl
    · simp_all
  | case2 start t h ih =>
    obtain ⟨hcut, hmem⟩ := find_between h
    rw [fields]
    split
    · simp_all
    · rename_i t' h'
      obtain rfl : t = t' := Option.some.inj (h.symm.trans h')
      rw [ih]
      conv_rhs => rw [hcut]
      rw [List.splitOn_append_cons_self_of_not_mem hmem]

/-- A well-formed line: the texts of the context and the index of its plate between tabs. An index
that is no number counts as 0. -/
def WellFormed (line dev_id : Text) (context : LocalPrintContext) : Prop :=
  ∃ plate_index, line.splitOn tab = texts context ++ [plate_index] ∧ dev_id ≠ [] ∧
    context.dev_id = dev_id ∧ context.plate_index = (stoi plate_index).getD 0 ∧
    context.active = true

/-- What a line must be to be read as a context. -/
theorem parse_line_eq_some {line dev_id : Text} {context : LocalPrintContext} :
    parse_line line = some (dev_id, context) ↔ WellFormed line dev_id context := by
  unfold parse_line WellFormed
  rw [fields_eq, List.drop_zero]
  constructor
  · intro h
    split at h
    · rename_i plate_index hfields
      split_ifs at h with hempty
      simp only [Option.some.injEq, Prod.mk.injEq] at h
      obtain ⟨rfl, rfl⟩ := h
      exact ⟨plate_index, hfields, hempty, rfl, rfl, rfl⟩
    · cases h
  · rintro ⟨plate_index, hfields, hempty, rfl, hindex, hactive⟩
    rw [hfields]
    simp only [texts, List.cons_append, List.nil_append, if_neg hempty, ← hindex, ← hactive]

/-- A context that is read can be written. -/
theorem lasting_of_parse {content line dev_id : Text} {context : LocalPrintContext}
    (hline : line ∈ lines newline content) (h : parse_line line = some (dev_id, context)) :
    Lasting dev_id context := by
  obtain ⟨plate_index, hfields, hempty, hkey, -, hactive⟩ := parse_line_eq_some.mp h
  refine ⟨hempty, hkey, hactive, fun t ht => ?_⟩
  have hmem : t ∈ line.splitOn tab := hfields ▸ List.mem_append_left _ ht
  refine ⟨fun hx => (mem_field hmem hx).2 rfl, fun hx => ?_⟩
  exact notMem_of_mem_lines hline (mem_field hmem hx).1

/-- A context that is written is read again. -/
theorem parse_context_line {dev_id : Text} {context : LocalPrintContext}
    (h : Lasting dev_id context) : parse_line (context_line context) = some (dev_id, context) := by
  rw [parse_line_eq_some]
  refine ⟨_, splitOn_flatMap (fun t ht => (h.plain t ht).1) (plain_int_text _).1, h.nonempty,
    h.key, ?_, h.active⟩
  rw [stoi_int_text, Option.getD_some]

theorem newline_notMem_context_line {dev_id : Text} {context : LocalPrintContext}
    (h : Lasting dev_id context) : newline ∉ context_line context := by
  unfold context_line
  rw [List.mem_append, List.mem_flatMap, not_or]
  refine ⟨?_, (plain_int_text _).2⟩
  rintro ⟨t, ht, hm⟩
  rcases List.mem_append.mp hm with hm | hm
  · exact (h.plain t ht).2 hm
  · exact absurd (List.mem_singleton.mp hm) (by decide)

/-! ## Loading -/

/-- The contexts of the lines of a file. -/
def records (content : Text) : List (Text × LocalPrintContext) :=
  (lines newline content).filterMap parse_line

theorem load_some (content : Text) :
    load_local_print_contexts (some content) = collect (records content) :=
  foldl_enter parse_line _

theorem load_lasting (file : Option Text) : AllLasting (load_local_print_contexts file) := by
  intro dev_id context h
  cases file with
  | none => cases h
  | some content =>
    rw [load_some] at h
    obtain ⟨line, hline, hparse⟩ := List.mem_filterMap.mp (mem_of_collect h)
    exact lasting_of_parse hline hparse

theorem exists_lists_load (file : Option Text) :
    ∃ order, Lists (load_local_print_contexts file) order := by
  cases file with
  | none => exact ⟨[], .nil⟩
  | some content =>
    rw [load_some]
    exact exists_lists_collect _

/-- The file of contexts that last is read as these contexts. -/
theorem load_persist {contexts : Contexts} (h : AllLasting contexts)
    {order : List (Text × LocalPrintContext)} (horder : Lists contexts order) :
    load_local_print_contexts (some (persist_local_print_contexts order)) = contexts := by
  have hlasting : ∀ e ∈ order, Lasting e.1 e.2 := fun e he =>
    h e.1 e.2 ((horder.mem e.1 e.2).mp he)
  have htext : persist_local_print_contexts order =
      order.flatMap fun e => context_line e.2 ++ [newline] := by
    refine List.flatMap_congr fun e he => ?_
    rw [if_neg]
    simp [(hlasting e he).active, (hlasting e he).nonempty]
  rw [load_some, records, htext]
  exact collect_table parse_line horder
    (fun e he => newline_notMem_context_line (hlasting e he))
    (fun e he => parse_context_line (hlasting e he))

/-- The laws of a file, whatever its content. -/
structure StableFile (content : Text) : Prop where
  lasting : AllLasting (load_local_print_contexts (some content))
  /-- The last well-formed line for a device counts. -/
  last : ∀ dev_id context before line behind,
    lines newline content = before ++ line :: behind → WellFormed line dev_id context →
    (∀ l ∈ behind, ∀ c, ¬ WellFormed l dev_id c) →
    load_local_print_contexts (some content) dev_id = some context
  absent : ∀ dev_id, (∀ l ∈ lines newline content, ∀ c, ¬ WellFormed l dev_id c) →
    load_local_print_contexts (some content) dev_id = none
  /-- The contexts can be written out, in some order. -/
  finite : ∃ order, Lists (load_local_print_contexts (some content)) order
  stable : ∀ order, Lists (load_local_print_contexts (some content)) order →
    load_local_print_contexts (some (persist_local_print_contexts order)) =
      load_local_print_contexts (some content)

/-- No line behind the last one for a device tells of it. -/
theorem filter_records {ls : List Text} {dev_id : Text}
    (h : ∀ l ∈ ls, ∀ c, ¬ WellFormed l dev_id c) :
    (ls.filterMap parse_line).filter (fun e => e.1 = dev_id) = [] := by
  rw [List.filter_eq_nil_iff]
  rintro ⟨d, c⟩ he hd
  obtain ⟨l, hl, hparse⟩ := List.mem_filterMap.mp he
  rw [decide_eq_true_eq] at hd
  exact h l hl c (parse_line_eq_some.mp (hd ▸ hparse))

theorem any_file_loads_as_a_stable_store (content : Text) : StableFile content where
  lasting := load_lasting _
  last := by
    intro dev_id context before line behind hlines hline hbehind
    have hparse := parse_line_eq_some.mpr hline
    rw [load_some, collect_apply, records, hlines, List.filterMap_append, List.filter_append,
      List.filterMap_cons_some hparse, List.filter_cons_of_pos (by simp), filter_records hbehind]
    simp
  absent := by
    intro dev_id h
    rw [load_some, collect_apply, records, filter_records h]
    rfl
  finite := exists_lists_load _
  stable := fun order horder => load_persist (load_lasting _) horder

end bambu_farm_client.local_state
