-- The text that announces a printer to the plugin (`emit_available_printer` in
-- `api.rs`). The strings of the printer are put between quotes as they are, and the
-- plugin looks for the id by a search for its key.
import BambuFarm.JsonGrowth
import BambuFarm.JsonRead
import BambuFarm.JsonSearch
import BambuFarm.PrinterMetadata
import BambuFarm.Proto
import BambuFarm.Text

open json search
open text (isBlank isWhitespace trim)
open bambu_farm (PrinterOption)
open bambu_farm_client.local_state (newline)
open bambu_farm_client.printer_metadata (field_of_find json_string_field needle needle_eq
  scanned_of_escaped)

namespace bambu_farm_client.available_printers

/-! ## The text -/

/-- `as_bytes`. -/
def as_bytes (s : String) : Text := s.toList.flatMap String.utf8EncodeChar

/-- The text of the `format!`. -/
def format (dev_name dev_id printer_host model : String) : String :=
  "\x7b\n                \"dev_name\": \"" ++ dev_name ++
  "\",\n                \"dev_id\": \"" ++ dev_id ++
  "\",\n                \"dev_ip\": \"" ++ printer_host ++
  "\",\n                \"dev_type\": \"" ++ model ++
  ("\",\n                \"dev_signal\": \"0dbm\"" ++
    ",\n                \"connect_type\": \"lan\"" ++
    ",\n                \"bind_state\": \"free\"\n            \x7d")

/-- The text for the callback. A printer without a host is skipped. -/
def emit_available_printer (printer_host_for_device : String → Option String)
    (printer : PrinterOption) : Option Text :=
  let printer_host :=
    if isBlank printer.host then
      match printer_host_for_device printer.dev_id with
      | some host => if isBlank host then none else some host
      | none => none
    else some printer.host
  printer_host.map fun printer_host =>
    as_bytes (trim (format printer.dev_name printer.dev_id printer_host printer.model))

/-! ## What it has to say -/

/-- The strings of a printer, by their keys in the text. -/
def fields (printer : PrinterOption) : List (Text × Text) :=
  [(ascii "dev_name", as_bytes printer.dev_name), (ascii "dev_id", as_bytes printer.dev_id),
    (ascii "dev_ip", as_bytes printer.host), (ascii "dev_type", as_bytes printer.model)]

/-- The text is an object that has the strings of the printer, and its id is found. -/
def Announces (printer : PrinterOption) (text : Text) : Prop :=
  (∃ ms, parse text = some (.obj ms) ∧ ∀ m ∈ fields printer, ms.lookup m.1 = some (.str m.2)) ∧
    json_string_field text (ascii "dev_id") = as_bytes printer.dev_id

/-- No string of the printer has a quote, a backslash or a control character. -/
def AllPlain (printer : PrinterOption) : Prop := ∀ m ∈ fields printer, m.2.all isPlain = true

instance (printer : PrinterOption) : Decidable (AllPlain printer) :=
  inferInstanceAs (Decidable (∀ _ ∈ _, _))

/-! ## The lines of the text -/

/-- The spaces before the key of a line. -/
def indent : Text := List.replicate 16 0x20

/-- A line up to the text of its value. -/
def lineStart (key : Text) : Text :=
  newline :: indent ++ (quote :: key ++ [quote, colon]) ++ [0x20, quote]

/-- A line with the comma behind it. -/
def line (m : Text × Text) : Text := lineStart m.1 ++ (m.2 ++ [quote, comma])

/-- The lines that are the same for every printer. -/
def lastLines : Text :=
  ascii "\n                \"dev_signal\": \"0dbm\"," ++
  ascii "\n                \"connect_type\": \"lan\"," ++
  ascii "\n                \"bind_state\": \"free\"\n            \x7d"

theorem as_bytes_append (s t : String) : as_bytes (s ++ t) = as_bytes s ++ as_bytes t := by
  rw [as_bytes, String.toList_append, List.flatMap_append]
  rfl

/-- The pieces of the text around the four strings. -/
structure Pieces (a b c d e : String) : Prop where
  format : ∀ dev_name dev_id printer_host model : String,
    format dev_name dev_id printer_host model =
      a ++ dev_name ++ b ++ dev_id ++ c ++ printer_host ++ d ++ model ++ e
  head : a.toList.head? = some '\x7b'
  last : e.toList.getLast? = some '\x7d'
  name : as_bytes a = lbrace :: lineStart (ascii "dev_name")
  id : as_bytes b = quote :: comma :: lineStart (ascii "dev_id")
  ip : as_bytes c = quote :: comma :: lineStart (ascii "dev_ip")
  type : as_bytes d = quote :: comma :: lineStart (ascii "dev_type")
  rest : as_bytes e = quote :: comma :: lastLines

theorem format_pieces : ∃ a b c d e, Pieces a b c d e :=
  ⟨_, _, _, _, _, fun _ _ _ _ => rfl, by decide +kernel, by decide +kernel, by decide +kernel,
    by decide +kernel, by decide +kernel, by decide +kernel, by decide +kernel⟩

/-- The text starts with a brace and ends with one, so there is nothing to trim. -/
theorem trim_format (dev_name dev_id printer_host model : String) :
    trim (format dev_name dev_id printer_host model) =
      format dev_name dev_id printer_host model := by
  obtain ⟨a, b, c, d, e, hp⟩ := format_pieces
  refine text.trim_of_ends (a := '\x7b') (b := '\x7d') ?_ ?_ (by decide) (by decide)
  · rw [hp.format]
    simp only [String.toList_append, List.append_assoc, List.head?_append, hp.head, Option.some_or]
  · rw [hp.format]
    simp only [String.toList_append, List.getLast?_append, hp.last, Option.some_or]

theorem emit_text (printer_host_for_device : String → Option String) {printer : PrinterOption}
    (h : isBlank printer.host = false) :
    emit_available_printer printer_host_for_device printer =
      some (lbrace :: (fields printer).flatMap line ++ lastLines) := by
  obtain ⟨a, b, c, d, e, hp⟩ := format_pieces
  unfold emit_available_printer
  simp only [h, Bool.false_eq_true, if_false, Option.map_some, trim_format]
  simp only [hp.format, as_bytes_append, List.append_assoc, hp.name, hp.id, hp.ip, hp.type,
    hp.rest, fields, List.flatMap_cons, List.flatMap_nil, line, List.cons_append, List.nil_append]

/-! ## Reading the lines -/

/-- Spaces before a key change nothing. -/
theorem run_spaces {t : Text} (ht : t.all isSpace = true) {mode : Mode}
    (hm : mode = .objStart ∨ mode = .key) (fs : List Frame) :
    run ⟨fs, mode⟩ t = some ⟨fs, mode⟩ := by
  induction t with
  | nil => rfl
  | cons c t ih =>
    simp only [List.all_cons, Bool.and_eq_true] at ht
    have hstep : step ⟨fs, mode⟩ c = some ⟨fs, mode⟩ := by
      rcases hm with rfl | rfl <;> simp [step, ht.1]
    rw [run, hstep, Option.bind_some, ih ht.2]

section line

variable {mode : Mode} (hm : mode = .objStart ∨ mode = .key) (ms : List Member) (k' : Text)
  (fs : List Frame)

include hm

theorem run_lineStart {k : Text} (hk : k.all isPlain = true) :
    run ⟨.obj ms k' :: fs, mode⟩ (lineStart k) = some ⟨.obj ms k :: fs, .str false []⟩ := by
  rw [lineStart, List.append_assoc, run_append, run_spaces (by decide) hm, Option.bind_some,
    run_append, run_key hk hm, Option.bind_some]
  simp [run, step, isSpace, startValue]

/-- A line with a value that needs no escape adds its member. -/
theorem eval_line {m : Text × Text} (hk : m.1.all isPlain = true) (hv : m.2.all isPlain = true)
    (rest : Text) : eval ⟨.obj ms k' :: fs, mode⟩ (line m ++ rest) =
      eval ⟨.obj (ms ++ [(m.1, .str m.2)]) [] :: fs, .key⟩ rest := by
  have hend : run ⟨.obj ms m.1 :: fs, .str false ([] ++ m.2.map .byte)⟩ [quote, comma] =
      some ⟨.obj (ms ++ [(m.1, .str m.2)]) [] :: fs, .key⟩ := by
    have hstring : endString (.obj ms m.1 :: fs) false (decode ([] ++ m.2.map .byte)) =
        some ⟨.obj (ms ++ [(m.1, .str m.2)]) [] :: fs, .after⟩ := by
      rw [List.nil_append, decode_bytes]
      rfl
    simp only [run, step, if_true, hstring, Option.bind_some]
    rfl
  rw [line, List.append_assoc, eval_append, run_lineStart hm ms k' fs hk, Option.bind_some,
    List.append_assoc, eval_append, spells_plain hv, Option.bind_some, eval_append, hend,
    Option.bind_some]

/-- The value of a line that needs an escape is read as another one. -/
theorem eval_line_itself {m : Text × Text} (hk : m.1.all isPlain = true) {rest : Text} {w : Value}
    (h : eval ⟨.obj ms k' :: fs, mode⟩ (line m ++ newline :: rest) = some w) :
    ∃ s b, eval (complete (.obj ms m.1 :: fs) (.str s)) b = some w ∧
      (s = m.2 → m.2.all isPlain = true) := by
  rw [line, List.append_assoc, eval_append, run_lineStart hm ms k' fs hk, Option.bind_some,
    List.append_assoc] at h
  exact eval_itself (by decide) h

end line

/-- The member of a line. -/
def lineMember (m : Text × Text) : Member := (m.1, .str m.2)

theorem eval_lines {ls : List (Text × Text)} (hk : ∀ m ∈ ls, m.1.all isPlain = true)
    (hv : ∀ m ∈ ls, m.2.all isPlain = true) (ms : List Member) (fs : List Frame) (rest : Text) :
    eval ⟨.obj ms [] :: fs, .key⟩ (ls.flatMap line ++ rest) =
      eval ⟨.obj (ms ++ ls.map lineMember) [] :: fs, .key⟩ rest := by
  induction ls generalizing ms with
  | nil => simp
  | cons m ls ih =>
    rw [List.forall_mem_cons] at hk hv
    rw [List.flatMap_cons, List.append_assoc, eval_line (.inr rfl) ms [] fs hk.1 hv.1,
      ih hk.2 hv.2, List.append_assoc]
    rfl

/-- The members that are the same for every printer. -/
def lastMembers : List Member :=
  [(ascii "dev_signal", .str (ascii "0dbm")), (ascii "connect_type", .str (ascii "lan")),
    (ascii "bind_state", .str (ascii "free"))]

/-- The end of the text behind its last value. -/
def closing : Text := quote :: newline :: List.replicate 12 0x20 ++ [rbrace]

theorem lastLines_eq : lastLines =
    [(ascii "dev_signal", ascii "0dbm"), (ascii "connect_type", ascii "lan")].flatMap line ++
      (lineStart (ascii "bind_state") ++ (ascii "free" ++ closing)) := by
  decide +kernel

theorem eval_closing (ms : List Member) {k t : Text} (ht : t.all isPlain = true) :
    eval ⟨[.obj ms k], .str false []⟩ (t ++ closing) = some (.obj (ms ++ [(k, .str t)])) := by
  have hsplit : closing = [quote] ++ ((newline :: List.replicate 12 0x20) ++ [rbrace]) := rfl
  have hquote : run ⟨[.obj ms k], .str false ([] ++ t.map .byte)⟩ [quote] =
      some (complete [.obj ms k] (.str t)) := by
    simp [run, step, endString, decode_bytes]
  have hbrace : eval (complete [.obj ms k] (.str t)) [rbrace] =
      some (.obj (ms ++ [(k, .str t)])) := by
    simp [eval, run, step, complete, afterValue, isSpace, finish]
  rw [hsplit, eval_append, spells_plain ht, Option.bind_some, eval_append, hquote,
    Option.bind_some, eval_append, run_complete_spaces _ _ (by decide), Option.bind_some, hbrace]

theorem eval_lastLines (ms : List Member) :
    eval ⟨[.obj ms []], .key⟩ lastLines = some (.obj (ms ++ lastMembers)) := by
  rw [lastLines_eq, eval_lines (by decide) (by decide), eval_append,
    run_lineStart (.inr rfl) _ _ _ (by decide), Option.bind_some, eval_closing _ (by decide),
    List.append_assoc]
  rfl

theorem next_line (ls : List (Text × Text)) :
    ∃ t, ls.flatMap line ++ lastLines = newline :: t := by
  cases ls with
  | nil => exact ⟨_, rfl⟩
  | cons m ls => exact ⟨_, rfl⟩

/-- The keys of the strings of a printer. -/
def fieldKeys : List Text := [ascii "dev_name", ascii "dev_id", ascii "dev_ip", ascii "dev_type"]

theorem fields_keys (printer : PrinterOption) : (fields printer).map (·.1) = fieldKeys := rfl

theorem plain_keys (printer : PrinterOption) : ∀ m ∈ fields printer, m.1.all isPlain = true := by
  have hall : ∀ k ∈ fieldKeys, k.all isPlain = true := by decide
  intro m hm
  exact hall m.1 (fields_keys printer ▸ List.mem_map_of_mem hm)

/-- The text from its first line on. -/
theorem parse_lines (m : Text × Text) (ls : List (Text × Text)) :
    parse (lbrace :: (m :: ls).flatMap line ++ lastLines) =
      eval ⟨[.obj [] []], .objStart⟩ (line m ++ (ls.flatMap line ++ lastLines)) := by
  have hopen : run start [lbrace] = some ⟨[.obj [] []], .objStart⟩ := rfl
  rw [List.flatMap_cons, List.cons_append, List.append_assoc, parse, ← List.singleton_append,
    eval_append, hopen, Option.bind_some]

/-! ## Strings that need no escape -/

/-- The object has the strings, and the members that are the same for every printer. -/
theorem parse_plain {printer : PrinterOption} (h : AllPlain printer) :
    parse (lbrace :: (fields printer).flatMap line ++ lastLines) =
      some (.obj ((fields printer).map lineMember ++ lastMembers)) := by
  have hk := plain_keys printer
  unfold AllPlain at h
  unfold fields at h hk ⊢
  rw [List.forall_mem_cons] at h hk
  rw [parse_lines, eval_line (.inl rfl) [] [] [] hk.1 h.1, eval_lines hk.2 h.2, eval_lastLines]
  rfl

theorem lookup_fields (printer : PrinterOption) : ∀ m ∈ fields printer,
    ((fields printer).map lineMember ++ lastMembers).lookup m.1 = some (.str m.2) := by
  intro m hm
  refine lookup_of_mem ?_ (List.mem_append_left _ (List.mem_map_of_mem hm))
  have hnodup : (fieldKeys ++ keys lastMembers).Nodup := by decide
  rwa [keys, List.map_append, List.map_map]

/-- The text before the key of the id. -/
def idFront (name : Text) : Text :=
  lbrace :: newline :: indent ++
    (quote :: (ascii "dev_name" ++ ([quote, colon, 0x20] ++ (quote :: name ++ [quote]))) ++
      comma :: newline :: indent)

/-- Whatever the name is, the key of the id is not found before it stands. -/
theorem find_id {name : Text} (h : Escaped name) (rest : Text) :
    find (idFront name ++ (needle (ascii "dev_id") ++ rest)) (needle (ascii "dev_id")) 0 =
      some (idFront name).length := by
  have hhead : (keyPattern (ascii "dev_id")).head? = some quote := rfl
  have hmisses : Misses (keyPattern (ascii "dev_id")) (idFront name)
      (needle (ascii "dev_id") ++ rest) := by
    rw [idFront, misses_append, misses_append]
    refine ⟨misses_of_notMem hhead (by decide) _, ?_, misses_of_notMem hhead (by decide) _⟩
    refine misses_other_member (by decide) (by decide) (by decide) (by decide) h fun c hc => ?_
    rw [List.cons_append, List.head?_cons, Option.some.injEq] at hc
    exact .inr (.inl hc.symm)
  refine (hmisses.mono ?_).found
  rw [needle_eq]
  exact List.prefix_append _ _

/-- The plugin finds the id of the printer. -/
theorem field_plain {printer : PrinterOption} (h : AllPlain printer) :
    json_string_field (lbrace :: (fields printer).flatMap line ++ lastLines) (ascii "dev_id") =
      as_bytes printer.dev_id := by
  have hname := h (ascii "dev_name", as_bytes printer.dev_name) (by simp [fields])
  have hid := h (ascii "dev_id", as_bytes printer.dev_id) (by simp [fields])
  obtain ⟨rest, htext⟩ : ∃ rest, lbrace :: (fields printer).flatMap line ++ lastLines =
      idFront (as_bytes printer.dev_name) ++ (needle (ascii "dev_id") ++
        (as_bytes printer.dev_id ++ quote :: rest)) := by
    refine ⟨comma :: (((fields printer).drop 2).flatMap line ++ lastLines), ?_⟩
    simp only [fields, List.drop_succ_cons, List.drop_zero, List.flatMap_cons, line, lineStart,
      idFront, needle_eq, keyPattern, List.append_assoc, List.cons_append, List.nil_append]
  rw [htext]
  exact field_of_find (scanned_of_escaped (escaped_of_plain hid)) (find_id (escaped_of_plain hname) _)

/-! ## Strings that need an escape -/

/-- The first value that is read for a key is the one that the object has for it. -/
theorem lookup_of_eval {ms all : List Member} {k : Text} {v : Value} {b : Text}
    (h : eval (complete [.obj ms k] v) b = some (.obj all)) (hk : k ∉ keys ms) :
    all.lookup k = some v := by
  obtain ⟨after, hs, hfs, hall⟩ := eval_complete_member h
  obtain rfl := List.map_eq_nil_iff.mp hfs
  rw [plug_nil, Value.obj.injEq] at hall
  rw [hall]
  exact lookup_first hk v after

/-- A string that an object has for its key needs no escape. -/
theorem plain_of_lines {ls : List (Text × Text)} {mode : Mode}
    (hm : mode = .objStart ∨ mode = .key) {ms all : List Member} {k' : Text}
    (hplain : ∀ m ∈ ls, m.1.all isPlain = true) (hnodup : (keys ms ++ ls.map (·.1)).Nodup)
    (hall : ∀ m ∈ ls, all.lookup m.1 = some (.str m.2))
    (h : eval ⟨[.obj ms k'], mode⟩ (ls.flatMap line ++ lastLines) = some (.obj all)) :
    ∀ m ∈ ls, m.2.all isPlain = true := by
  induction ls generalizing mode ms k' with
  | nil => simp
  | cons m ls ih =>
    rw [List.forall_mem_cons] at hplain hall ⊢
    rw [List.flatMap_cons, List.append_assoc] at h
    have hk : m.1 ∉ keys ms := by
      intro hk
      rw [List.map_cons, List.nodup_append] at hnodup
      exact hnodup.2.2 m.1 hk m.1 List.mem_cons_self rfl
    have hm2 : m.2.all isPlain = true := by
      obtain ⟨t, ht⟩ := next_line ls
      rw [ht] at h
      obtain ⟨s, b, hb, hs⟩ := eval_line_itself hm ms k' [] hplain.1 h
      have hlookup := lookup_of_eval hb hk
      rw [hall.1, Option.some.injEq, Value.str.injEq] at hlookup
      exact hs hlookup.symm
    rw [eval_line hm ms k' [] hplain.1 hm2] at h
    have hrest : (keys (ms ++ [(m.1, .str m.2)]) ++ ls.map (·.1)).Nodup := by
      simpa using hnodup
    exact ⟨hm2, ih (.inr rfl) hplain.2 hrest hall.2 h⟩

/-- An announcement says what the printer is exactly when no string of it has a quote, a
backslash or a control character. -/
theorem announcements_survive_iff (printer_host_for_device : String → Option String)
    (printer : PrinterOption) (hhost : isBlank printer.host = false) :
    (∃ text, emit_available_printer printer_host_for_device printer = some text ∧
      Announces printer text) ↔ AllPlain printer := by
  rw [emit_text printer_host_for_device hhost]
  constructor
  · rintro ⟨text, htext, ⟨ms, hparse, hall⟩, -⟩
    cases htext
    have hnodup : (keys [] ++ (fields printer).map (·.1)).Nodup := (by decide : fieldKeys.Nodup)
    have heval : eval ⟨[.obj [] []], .objStart⟩ ((fields printer).flatMap line ++ lastLines) =
        some (.obj ms) := by
      rw [fields, parse_lines] at hparse
      rwa [fields, List.flatMap_cons, List.append_assoc]
    exact plain_of_lines (.inl rfl) (plain_keys printer) hnodup hall heval
  · intro h
    exact ⟨_, rfl, ⟨_, parse_plain h, lookup_fields printer⟩, field_plain h⟩

/-- A printer at home. -/
def benchPrinter : PrinterOption :=
  { dev_name := "bench", dev_id := "01P00A", model := "C11", host := "192.168.1.7" }

theorem the_bench_printer_is_announced :
    ∃ text, emit_available_printer (fun _ => none) benchPrinter = some text ∧
      Announces benchPrinter text :=
  (announcements_survive_iff (fun _ => none) benchPrinter (by decide +kernel)).mpr
    (by decide +kernel)

/-- A printer whose name goes on behind its quote, with the id of another printer. -/
def craftyPrinter : PrinterOption :=
  { benchPrinter with dev_name := "bench\", \"dev_id\": \"01P00B" }

theorem a_name_takes_another_device : isBlank craftyPrinter.host = false ∧
    ∃ text, emit_available_printer (fun _ => none) craftyPrinter = some text ∧
      json_string_field text (ascii "dev_id") = ascii "01P00B" ∧
      ¬ Announces craftyPrinter text := by
  have hhost : isBlank craftyPrinter.host = false := by decide +kernel
  have hother : json_string_field (lbrace :: (fields craftyPrinter).flatMap line ++ lastLines)
      (ascii "dev_id") = ascii "01P00B" := by
    decide +kernel
  refine ⟨hhost, _, emit_text _ hhost, hother, fun h => ?_⟩
  have hid := hother.symm.trans h.2
  revert hid
  decide +kernel

end bambu_farm_client.available_printers
