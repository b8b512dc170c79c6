-- The module that the slicer takes for the camera library (`bambu_source.c`). It opens the
-- network plugin beside itself at the first call, and forwards each call to it. A plugin that
-- lacks a symbol is taken for a loaded one at the second call.
import BambuFarm.Json
import BambuFarm.Runs

open json runs

namespace bambu_farm_client.bambu_source

variable {φ : Type}

/-! ## The model -/

inductive Symbol
  | Bambu_Create
  | Bambu_SetLogger
  | Bambu_Open
  | Bambu_StartStream
  | Bambu_StartStreamEx
  | Bambu_GetStreamCount
  | Bambu_GetStreamInfo
  | Bambu_GetDuration
  | Bambu_Seek
  | Bambu_ReadSample
  | Bambu_SendMessage
  | Bambu_RecvMessage
  | Bambu_Close
  | Bambu_Destroy
  | Bambu_Init
  | Bambu_Deinit
  | Bambu_GetLastErrorMsg
  | Bambu_FreeLogMsg
  deriving DecidableEq

namespace Symbol

/-- The symbols in the order of the loads. -/
def all : List Symbol :=
  [Bambu_Create, Bambu_SetLogger, Bambu_Open, Bambu_StartStream, Bambu_StartStreamEx,
    Bambu_GetStreamCount, Bambu_GetStreamInfo, Bambu_GetDuration, Bambu_Seek, Bambu_ReadSample,
    Bambu_SendMessage, Bambu_RecvMessage, Bambu_Close, Bambu_Destroy, Bambu_Init, Bambu_Deinit,
    Bambu_GetLastErrorMsg, Bambu_FreeLogMsg]

def name : Symbol → Text
  | Bambu_Create => ascii "Bambu_Create"
  | Bambu_SetLogger => ascii "Bambu_SetLogger"
  | Bambu_Open => ascii "Bambu_Open"
  | Bambu_StartStream => ascii "Bambu_StartStream"
  | Bambu_StartStreamEx => ascii "Bambu_StartStreamEx"
  | Bambu_GetStreamCount => ascii "Bambu_GetStreamCount"
  | Bambu_GetStreamInfo => ascii "Bambu_GetStreamInfo"
  | Bambu_GetDuration => ascii "Bambu_GetDuration"
  | Bambu_Seek => ascii "Bambu_Seek"
  | Bambu_ReadSample => ascii "Bambu_ReadSample"
  | Bambu_SendMessage => ascii "Bambu_SendMessage"
  | Bambu_RecvMessage => ascii "Bambu_RecvMessage"
  | Bambu_Close => ascii "Bambu_Close"
  | Bambu_Destroy => ascii "Bambu_Destroy"
  | Bambu_Init => ascii "Bambu_Init"
  | Bambu_Deinit => ascii "Bambu_Deinit"
  | Bambu_GetLastErrorMsg => ascii "Bambu_GetLastErrorMsg"
  | Bambu_FreeLogMsg => ascii "Bambu_FreeLogMsg"

theorem mem_all (n : Symbol) : n ∈ all := by
  cases n <;> decide

end Symbol

/-- A module that was opened, with the functions that it has. -/
structure Library (φ : Type) where
  dlsym : Symbol → Option φ

/-- What the dynamic linker answers during a call. -/
structure Linker (φ : Type) where
  dli_fname : Option Text
  dlopen : Text → Option (Library φ)
  dlerror : Text

structure Source (φ : Type) where
  network_module : Option (Library φ)
  fn : Symbol → Option φ
  last_error : Text

def initial : Source φ := ⟨none, fun _ => none, []⟩

def PATH_MAX : Nat := 4096

/-- What fits into a buffer, before its null byte. -/
def snprintf (size : Nat) (t : Text) : Text := t.take (size - 1)

/-- The path of the plugin beside the module, if the path of the module has a directory. -/
def network_path (dli_fname : Text) : Option Text :=
  let path := dli_fname.take (PATH_MAX - 1)
  if 0x2F ∈ path then
    let dir := ((path.reverse.dropWhile fun c => c ≠ 0x2F).drop 1).reverse
    some (snprintf PATH_MAX (dir ++ ascii "/libbambu_networking.so"))
  else none

def load_symbols (linker : Linker φ) (lib : Library φ) : List Symbol → Source φ → Int × Source φ
  | [], s => (0, s)
  | n :: rest, s =>
    match lib.dlsym n with
    | none => (-1, { s with
        fn := Function.update s.fn n none
        last_error := snprintf 512
          (ascii "missing symbol " ++ n.name ++ ascii ": " ++ linker.dlerror) })
    | some f => load_symbols linker lib rest { s with fn := Function.update s.fn n (some f) }

def load_network_module (linker : Linker φ) (s : Source φ) : Int × Source φ :=
  if s.network_module.isSome then (0, s)
  else match linker.dli_fname with
    | none => (-1, { s with last_error := ascii "dladdr failed" })
    | some dli_fname =>
      match network_path dli_fname with
      | none => (-1, { s with last_error := ascii "invalid module path" })
      | some network_path =>
        match linker.dlopen network_path with
        | none => (-1, { s with
            last_error := snprintf 512 (ascii "dlopen failed: " ++ linker.dlerror) })
        | some lib => load_symbols linker lib Symbol.all { s with network_module := some lib }

/-- What becomes of a call: it fails here, it is a call of a function of the plugin, or it is a
call of a null pointer. -/
inductive Outcome (φ : Type)
  | failed
  | called (f : φ)
  | null

/-- The entries of the module differ in what they give when they fail. -/
def enter (linker : Linker φ) (n : Symbol) (s : Source φ) : Outcome φ × Source φ :=
  let loaded := load_network_module linker s
  if loaded.1 ≠ 0 then (.failed, loaded.2)
  else match loaded.2.fn n with
    | none => (.null, loaded.2)
    | some f => (.called f, loaded.2)

inductive Event (φ : Type)
  | construct (linker : Linker φ)
  | call (linker : Linker φ) (n : Symbol)

def stepEvent (s : Source φ) : Event φ → Source φ
  | .construct linker => (load_network_module linker s).2
  | .call linker n => (enter linker n s).2

def sourceAfter (es : List (Event φ)) : Source φ := after stepEvent initial es

/-! ## The law -/

/-- The plugin that a linker opens. -/
def opens (linker : Linker φ) : Option (Library φ) :=
  (linker.dli_fname.bind network_path).bind linker.dlopen

def Event.linker : Event φ → Linker φ
  | .construct linker => linker
  | .call linker _ => linker

/-- The plugin that was opened first. -/
def openedBy (es : List (Event φ)) : Option (Library φ) := es.findSome? fun e => opens e.linker

/-- The loads get as far as the symbol. -/
def Library.reaches (lib : Library φ) (n : Symbol) : Bool :=
  (Symbol.all.takeWhile fun m => m ≠ n).all fun m => (lib.dlsym m).isSome

/-- A function of the plugin that its loads get to. -/
def Library.loaded (lib : Library φ) (n : Symbol) : Option φ :=
  if lib.reaches n then lib.dlsym n else none

def Library.complete (lib : Library φ) : Bool := Symbol.all.all fun n => (lib.dlsym n).isSome

/-- What becomes of a call after a run. -/
def fate (es : List (Event φ)) (linker : Linker φ) (n : Symbol) : Outcome φ :=
  match openedBy es with
  | some lib => (lib.loaded n).elim .null .called
  | none =>
    match opens linker with
    | none => .failed
    | some lib => if lib.complete then (lib.dlsym n).elim .null .called else .failed

/-! ## The loads -/

theorem load_symbols_spec (linker : Linker φ) (lib : Library φ) {ns : List Symbol}
    (hnodup : ns.Nodup) (s : Source φ) (hnone : ∀ n ∈ ns, s.fn n = none) :
    (load_symbols linker lib ns s).2.network_module = s.network_module ∧
    ((load_symbols linker lib ns s).1 = 0 ↔ ns.all (fun n => (lib.dlsym n).isSome) = true) ∧
    (∀ n, n ∉ ns → (load_symbols linker lib ns s).2.fn n = s.fn n) ∧
    ∀ n ∈ ns, (load_symbols linker lib ns s).2.fn n =
      if (ns.takeWhile fun m => m ≠ n).all fun m => (lib.dlsym m).isSome then lib.dlsym n
      else none := by
  induction ns generalizing s with
  | nil => exact ⟨rfl, by simp [load_symbols], fun _ _ => rfl, fun n hn => by cases hn⟩
  | cons m ns ih =>
    rw [List.nodup_cons] at hnodup
    rw [List.forall_mem_cons] at hnone
    cases hm : lib.dlsym m with
    | none =>
      have hload : load_symbols linker lib (m :: ns) s = (-1, { s with
          fn := Function.update s.fn m none
          last_error := snprintf 512
            (ascii "missing symbol " ++ m.name ++ ascii ": " ++ linker.dlerror) }) := by
        simp only [load_symbols, hm]
      have hfn : Function.update s.fn m none = s.fn := by
        rw [← hnone.1, Function.update_eq_self]
      rw [hload]
      refine ⟨rfl, by simp [hm], fun n _ => by simp only [hfn], fun n hn => ?_⟩
      simp only [hfn]
      by_cases heq : n = m
      · rw [heq, hm, hnone.1, ite_self]
      · have hne : m ≠ n := fun h => heq h.symm
        rw [List.takeWhile_cons_of_pos (by simpa using hne), List.all_cons, hm]
        rcases List.mem_cons.mp hn with h | h
        · exact absurd h heq
        · exact hnone.2 n h
    | some f =>
      have hload : load_symbols linker lib (m :: ns) s =
          load_symbols linker lib ns { s with fn := Function.update s.fn m (some f) } := by
        simp only [load_symbols, hm]
      obtain ⟨hmodule, hzero, hout, hin⟩ := ih hnodup.2
        { s with fn := Function.update s.fn m (some f) } fun n hn => by
          have hne : n ≠ m := fun heq => hnodup.1 (by rwa [← heq])
          exact (Function.update_of_ne hne ..).trans (hnone.2 n hn)
      rw [hload]
      refine ⟨hmodule, ?_, fun n hn => ?_, fun n hn => ?_⟩
      · rw [hzero, List.all_cons, hm, Option.isSome_some, Bool.true_and]
      · rw [List.mem_cons, not_or] at hn
        rw [hout n hn.2]
        exact Function.update_of_ne hn.1 ..
      · by_cases heq : n = m
        · subst heq
          rw [hout n hnodup.1, List.takeWhile_cons_of_neg (by simp), List.all_nil, if_pos rfl, hm]
          exact Function.update_self ..
        · have hne : m ≠ n := fun h => heq h.symm
          have hmem : n ∈ ns := (List.mem_cons.mp hn).resolve_left heq
          rw [hin n hmem, List.takeWhile_cons_of_pos (by simpa using hne), List.all_cons, hm,
            Option.isSome_some, Bool.true_and]

theorem load_all (linker : Linker φ) (lib : Library φ) (s : Source φ) (hnone : ∀ n, s.fn n = none) :
    (load_symbols linker lib Symbol.all s).2.network_module = s.network_module ∧
    ((load_symbols linker lib Symbol.all s).1 = 0 ↔ lib.complete = true) ∧
    ∀ n, (load_symbols linker lib Symbol.all s).2.fn n = lib.loaded n := by
  obtain ⟨hmodule, hzero, -, hin⟩ :=
    load_symbols_spec linker lib (by decide : Symbol.all.Nodup) s fun n _ => hnone n
  exact ⟨hmodule, hzero, fun n => hin n (Symbol.mem_all n)⟩

/-- The loads of a complete plugin get to every symbol. -/
theorem loaded_of_complete {lib : Library φ} (h : lib.complete = true) (n : Symbol) :
    lib.loaded n = lib.dlsym n := by
  have hall := List.all_eq_true.mp h
  rw [Library.loaded, if_pos]
  exact List.all_eq_true.mpr fun m _ => hall m (Symbol.mem_all m)

/-! ## A call -/

/-- The state behind a run: the plugin that was opened first, and the functions that its loads got
to. -/
structure Behind (opened : Option (Library φ)) (s : Source φ) : Prop where
  module_eq : s.network_module = opened
  fn : ∀ n, s.fn n = opened.bind fun lib => lib.loaded n

theorem behind_initial : Behind (none : Option (Library φ)) initial := ⟨rfl, fun _ => rfl⟩

theorem load_opened {lib : Library φ} {s : Source φ} (h : Behind (some lib) s)
    (linker : Linker φ) : load_network_module linker s = (0, s) := by
  have hsome : s.network_module.isSome = true := by rw [h.module_eq]; rfl
  rw [load_network_module, if_pos hsome]

theorem load_unopened {s : Source φ} (h : Behind none s) (linker : Linker φ) :
    Behind (opens linker) (load_network_module linker s).2 ∧
      ((load_network_module linker s).1 = 0 ↔
        ∃ lib, opens linker = some lib ∧ lib.complete = true) := by
  have hnone : ∀ n, s.fn n = none := h.fn
  have hclosed : ∀ last_error, Behind none { s with last_error := last_error } :=
    fun _ => ⟨h.module_eq, h.fn⟩
  have hmodule : ¬ s.network_module.isSome = true := by rw [h.module_eq]; exact Bool.false_ne_true
  unfold load_network_module opens
  rw [if_neg hmodule]
  cases linker.dli_fname with
  | none => exact ⟨hclosed _, by simp⟩
  | some dli_fname =>
    simp only [Option.bind_some]
    cases network_path dli_fname with
    | none => exact ⟨hclosed _, by simp⟩
    | some network_path =>
      simp only [Option.bind_some]
      cases linker.dlopen network_path with
      | none => exact ⟨hclosed _, by simp⟩
      | some lib =>
        obtain ⟨hmodule, hzero, hfn⟩ :=
          load_all linker lib { s with network_module := some lib } hnone
        simp only [Option.some.injEq, exists_eq_left']
        exact ⟨⟨hmodule, hfn⟩, hzero⟩

theorem enter_state (linker : Linker φ) (n : Symbol) (s : Source φ) :
    (enter linker n s).2 = (load_network_module linker s).2 := by
  unfold enter
  dsimp only
  split_ifs
  · rfl
  · cases (load_network_module linker s).2.fn n with
    | none => rfl
    | some f => rfl

theorem openedBy_snoc (es : List (Event φ)) (e : Event φ) :
    openedBy (es ++ [e]) = (openedBy es).or (opens e.linker) := by
  rw [openedBy, List.findSome?_append]
  simp [openedBy, List.findSome?]
  cases opens e.linker <;> rfl

theorem behind_after (es : List (Event φ)) : Behind (openedBy es) (sourceAfter es) := by
  induction es using List.reverseRecOn with
  | nil => exact behind_initial
  | append_singleton es e ih =>
    have hstep : sourceAfter (es ++ [e]) = (load_network_module e.linker (sourceAfter es)).2 := by
      rw [sourceAfter, after_snoc]
      cases e with
      | construct linker => rfl
      | call linker n => exact enter_state linker n _
    rw [hstep, openedBy_snoc]
    cases hopened : openedBy es with
    | some lib =>
      rw [hopened] at ih
      rw [load_opened ih, Option.some_or]
      exact ih
    | none =>
      rw [hopened] at ih
      rw [Option.none_or]
      exact (load_unopened ih e.linker).1

theorem enter_fate (es : List (Event φ)) (linker : Linker φ) (n : Symbol) :
    (enter linker n (sourceAfter es)).1 = fate es linker n := by
  have hbehind := behind_after es
  have hcall : ∀ s : Source φ, (match s.fn n with
      | none => ((.null : Outcome φ), s)
      | some f => (.called f, s)).1 = (s.fn n).elim .null .called := by
    intro s
    cases s.fn n with
    | none => rfl
    | some f => rfl
  unfold enter fate
  dsimp only
  cases hopened : openedBy es with
  | some lib =>
    rw [hopened] at hbehind
    rw [load_opened hbehind, if_neg (fun h => h rfl), hcall, hbehind.fn]
    rfl
  | none =>
    rw [hopened] at hbehind
    obtain ⟨hstate, hzero⟩ := load_unopened hbehind linker
    cases hlib : opens linker with
    | none =>
      rw [hlib] at hzero
      rw [if_pos fun h => by simpa using hzero.mp h]
    | some lib =>
      rw [hlib] at hstate hzero
      simp only [Option.some.injEq, exists_eq_left'] at hzero
      by_cases hcomplete : lib.complete = true
      · rw [if_neg (not_not.mpr (hzero.mpr hcomplete)), hcall, hstate.fn, Option.bind_some,
          loaded_of_complete hcomplete]
        simp only [hcomplete, if_true]
      · rw [if_pos fun h => hcomplete (hzero.mp h)]
        simp only [hcomplete, Bool.false_eq_true, if_false]

theorem loaded_eq_none {lib : Library φ} {n : Symbol} : lib.loaded n = none ↔
    ∃ m, (m = n ∨ m ∈ Symbol.all.takeWhile fun k => k ≠ n) ∧ lib.dlsym m = none := by
  unfold Library.loaded Library.reaches
  split_ifs with hreaches
  · rw [List.all_eq_true] at hreaches
    constructor
    · exact fun h => ⟨n, .inl rfl, h⟩
    · rintro ⟨m, rfl | hm, h⟩
      · exact h
      · have hsome := hreaches m hm
        rw [h] at hsome
        cases hsome
  · simp only [List.all_eq_true, not_forall, Option.not_isSome_iff_eq_none] at hreaches
    obtain ⟨m, hm, h⟩ := hreaches
    exact iff_of_true rfl ⟨m, .inr hm, h⟩

theorem elim_eq_null {o : Option φ} : o.elim Outcome.null .called = .null ↔ o = none := by
  cases o with
  | none => simp
  | some f => simp

/-- What becomes of each call of each run. A call of a null pointer comes about exactly when an
earlier call opened a plugin that lacks the symbol, or one that is loaded before it. -/
theorem calls_are_forwarded (es : List (Event φ)) (linker : Linker φ) (n : Symbol) :
    (enter linker n (sourceAfter es)).1 = fate es linker n ∧
      ((enter linker n (sourceAfter es)).1 = .null ↔
        ∃ lib, openedBy es = some lib ∧ ∃ m, (m = n ∨ m ∈ Symbol.all.takeWhile fun k => k ≠ n) ∧
          lib.dlsym m = none) := by
  have hfate := enter_fate es linker n
  refine ⟨hfate, ?_⟩
  rw [hfate]
  unfold fate
  cases openedBy es with
  | some lib =>
    simp only [Option.some.injEq, exists_eq_left']
    rw [elim_eq_null, loaded_eq_none]
  | none =>
    cases opens linker with
    | none => simp
    | some lib =>
      simp only [reduceCtorEq, false_and, exists_false, iff_false]
      split_ifs with hcomplete
      · have hsome := List.all_eq_true.mp hcomplete n (Symbol.mem_all n)
        obtain ⟨f, hf⟩ := Option.isSome_iff_exists.mp hsome
        simp [hf]
      · simp

end bambu_farm_client.bambu_source
