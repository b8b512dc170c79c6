-- Who owns the active connection. While no two calls run at once and the farm
-- loop leaves the senders alone, a connect that has returned owns the slot of
-- the active connection and the only sender, until the next call or the end
-- of its own worker. What older workers do in between does not matter: their
-- generation is not the one in the slot.
import BambuFarm.ConnectionCalls

open runs bambu_farm
open bambu_farm_client.connection bambu_farm_client.session_state

namespace bambu_farm_client.connection_calls

/-! ## The law -/

/-- A call begins while no other one is under way, a connect has a generation of its own,
and the farm loop does not clear the senders. -/
def Undivided (s : System) : Event → Prop
  | .connect _ _ _ now => (∀ c, s.calls c = none) ∧ ∀ x ∈ s.client.workers, x.generation ≠ now
  | .disconnect _ _ => ∀ c, s.calls c = none
  | .farm_reconnect _ now =>
    (∀ c, s.calls c = none) ∧ ∀ x ∈ s.client.workers, x.generation ≠ now
  | .farm_clear => False
  | _ => True

instance (es : List Event) : DecidablePred (Undivided (systemAfter es))
  | .connect _ _ _ _ => inferInstanceAs (Decidable (_ ∧ _))
  | .disconnect _ _ => inferInstanceAs (Decidable (∀ c, (systemAfter es).calls c = none))
  | .farm_reconnect _ _ => inferInstanceAs (Decidable (_ ∧ _))
  | .farm_clear => .isFalse id
  | .advance _ => .isTrue trivial
  | .worker _ _ => .isTrue trivial
  | .clear_on => .isTrue trivial
  | .plugin _ => .isTrue trivial

/-- A run whose calls come one after the other. -/
structure UndividedRun extends Run where
  undivided : Steps (fun es e => Undivided (systemAfter es) e) events

/-- The owner after an event: the connect that returns, until a call begins or its own worker
ends. -/
def ownerAfter (s : System) (o : Option Active) : Event → Option Active
  | .connect _ _ _ _ => none
  | .disconnect _ _ => none
  | .farm_reconnect _ _ => none
  | .worker w .clear => o.filter fun a => a.cancel_tx ≠ w
  | e => (s.publishes e).or o

/-- The connection of the last connect that returned, with the above. -/
def owner (es : List Event) : Option Active :=
  (after (fun (p : System × Option Active) e => (p.1.step e, ownerAfter p.1 p.2 e)) ({}, none) es).2

/-- The slot is the connection's, the only sender is its own, and its worker has its
generation. -/
structure Owns (s : System) (a : Active) : Prop where
  active : s.client.ACTIVE_CONNECTION_STATE = some a
  sender : ∀ d, s.client.MSG_TX d = if d = a.device_id then some a.cancel_tx else none
  worker : ∃ x, s.client.workers[a.cancel_tx]? = some x ∧ x.device_id = a.device_id ∧
    x.generation = a.generation

/-! ## The names of the workers -/

/-- The devices and generations of the workers. -/
def names (c : Client) : List (String × Generation) :=
  c.workers.map fun x => (x.device_id, x.generation)

/-- The connection goes by the name of its worker. -/
def Named (c : Client) (a : Active) : Prop :=
  (names c)[a.cancel_tx]? = some (a.device_id, a.generation)

/-- No two workers share a generation. -/
def Distinct (c : Client) : Prop := ((names c).map Prod.snd).Nodup

section

variable {c : Client}

theorem names_cancel (w : WorkerId) : names (c.cancel w) = names c := by
  unfold names Client.cancel
  apply List.ext_getElem?
  intro v
  simp only [Client.modifyWorker_workers, List.getElem?_map, List.getElem?_modify]
  cases c.workers[v]? with
  | none => rfl
  | some x => by_cases h : w = v <;> simp [h]

theorem names_setWorker {w : WorkerId} {x x' : Worker} (h : c.workers[w]? = some x)
    (hd : x'.device_id = x.device_id) (hg : x'.generation = x.generation) :
    names (c.setWorker w x') = names c := by
  unfold names Client.setWorker
  apply List.ext_getElem?
  intro v
  simp only [List.getElem?_map, List.getElem?_set]
  by_cases hv : w = v
  · subst hv
    obtain ⟨hlt, rfl⟩ := List.getElem?_eq_some_iff.mp h
    simp [hlt, hd, hg]
  · simp [hv]

theorem named_iff {a : Active} : Named c a ↔ ∃ x, c.workers[a.cancel_tx]? = some x ∧
    x.device_id = a.device_id ∧ x.generation = a.generation := by
  unfold Named names
  rw [List.getElem?_map, Option.map_eq_some_iff]
  simp only [Prod.mk.injEq]

/-- The worker with the generation of a connection is its own. -/
theorem own_worker {a : Active} {w : WorkerId} {x : Worker} (hdistinct : Distinct c)
    (hnamed : Named c a) (hx : c.workers[w]? = some x) (hg : x.generation = a.generation) :
    w = a.cancel_tx := by
  have hw : ((names c).map Prod.snd)[w]? = some a.generation := by
    simp [names, hx, hg]
  have ha : ((names c).map Prod.snd)[a.cancel_tx]? = some a.generation := by
    rw [List.getElem?_map, hnamed]
    rfl
  have hlt := (List.getElem?_eq_some_iff.mp hw).1
  exact (List.getElem?_inj hlt hdistinct).mp (hw.trans ha.symm)

end

/-! ## What holds between the sections -/

/-- The senders when a connection has the only one. -/
def only (o : Option Active) (d : String) : Option WorkerId :=
  o.bind fun a => if a.device_id = d then some a.cancel_tx else none

/-- The generation of a connect that has no worker yet. -/
def Point.generation : Point → Option Generation
  | .take (.connect _ _ now) => some now
  | .remove _ (.connect _ _ now) => some now
  | .forget _ (.connect _ _ now) => some now
  | .insert _ _ now => some now
  | _ => none

/-- What a call knows at a point. Behind its take it knows that the slot is empty, and up to
which sender the senders are empty. -/
def Knows (c : Client) : Point → Prop
  | .look _ => True
  | .take _ => True
  | .remove a _ => c.ACTIVE_CONNECTION_STATE = none ∧ c.MSG_TX = only (some a)
  | .forget _ _ => c.ACTIVE_CONNECTION_STATE = none ∧ c.MSG_TX = only none
  | .insert _ _ _ => c.ACTIVE_CONNECTION_STATE = none ∧ c.MSG_TX = only none
  | .publish a => c.ACTIVE_CONNECTION_STATE = none ∧ c.MSG_TX = only (some a) ∧ Named c a
  | .emit _ => c.ACTIVE_CONNECTION_STATE = none ∧ c.MSG_TX = only none
  | .drop d => ∀ a, c.ACTIVE_CONNECTION_STATE = some a → a.device_id ≠ d
  | .drop_current _ => True

/-- The call is behind its take. -/
def Point.midway : Point → Bool
  | .look _ => false
  | .take _ => false
  | .drop _ => false
  | .drop_current _ => false
  | _ => true

/-- Behind its take a call knows the slot to be empty. -/
theorem Knows.empty {c : Client} {point : Point} (h : Knows c point) (hmid : point.midway = true) :
    c.ACTIVE_CONNECTION_STATE = none := by
  cases point with
  | look d => cases hmid
  | take caller => cases hmid
  | drop d => cases hmid
  | drop_current d => cases hmid
  | _ => exact h.1

/-- Before that it knows of no sender, and of the slot only what is not in it. -/
theorem Knows.of_active {c c' : Client} {point : Point} (h : Knows c point)
    (hmid : point.midway = false)
    (hactive : ∀ a, c'.ACTIVE_CONNECTION_STATE = some a → c.ACTIVE_CONNECTION_STATE = some a) :
    Knows c' point := by
  cases point with
  | look d => trivial
  | take caller => trivial
  | drop d => exact fun a ha => h a (hactive a ha)
  | drop_current d => trivial
  | _ => cases hmid

/-- What the worker under the guard of the slot knows. -/
def Guards (c : Client) (w : WorkerId) : ClearPoint → Prop
  | .remove => ∀ d, c.MSG_TX d ≠ none → ∃ g, (names c)[w]? = some (d, g)
  | .forget => c.MSG_TX = only none

/-- What holds of the slot and the senders, with the worker under the guard of the slot and
the point of the call that is under way. -/
structure Sound (c : Client) (clearing : Option (WorkerId × ClearPoint)) (call : Option Point) :
    Prop where
  named : ∀ a, c.ACTIVE_CONNECTION_STATE = some a → Named c a
  distinct : Distinct c
  fresh : ∀ point now, call = some point → point.generation = some now →
    now ∉ (names c).map Prod.snd
  knows : ∀ point, call = some point → Knows c point
  unguarded : ∀ point, call = some point → point.midway = true → clearing = none
  senders : clearing = none → (∀ point, call = some point → point.midway = false) →
    c.MSG_TX = only c.ACTIVE_CONNECTION_STATE
  guarded : ∀ w point, clearing = some (w, point) →
    c.ACTIVE_CONNECTION_STATE = none ∧ Guards c w point

namespace Sound

variable {c : Client} {clearing : Option (WorkerId × ClearPoint)} {call : Option Point}

/-- What leaves the slot, the senders and the names alone keeps everything. -/
theorem frame (h : Sound c clearing call) {c' : Client}
    (hactive : c'.ACTIVE_CONNECTION_STATE = c.ACTIVE_CONNECTION_STATE)
    (htx : c'.MSG_TX = c.MSG_TX) (hnames : names c' = names c) : Sound c' clearing call where
  named := by
    intro a ha
    have hold := h.named a (hactive ▸ ha)
    unfold Named at hold ⊢
    rwa [hnames]
  distinct := by
    unfold Distinct
    rw [hnames]
    exact h.distinct
  fresh := by
    rw [hnames]
    exact h.fresh
  knows := by
    intro point hcall
    have hold := h.knows point hcall
    cases point <;> simp only [Knows, Named, hactive, htx, hnames] at hold ⊢ <;> exact hold
  unguarded := h.unguarded
  senders := by
    rw [hactive, htx]
    exact h.senders
  guarded := by
    intro w point hw
    have hold := h.guarded w point hw
    rw [hactive]
    cases point <;> simp only [Guards, htx, hnames] at hold ⊢ <;> exact hold

theorem takeCurrent (h : Sound c clearing call) (d : String) :
    Sound (c.takeCurrent d) clearing call :=
  h.frame (by simp) (System.tx_takeCurrent c d) (by simp [names])

/-- The call goes on to a point that is not behind a take, from another one. -/
theorem goes_on (h : Sound c clearing call) {next : Option Point}
    (hcall : ∀ point, call = some point → point.midway = false)
    (hnext : ∀ point, next = some point → point.midway = false ∧ Knows c point)
    (hfresh : ∀ point now, next = some point → point.generation = some now →
      now ∉ (names c).map Prod.snd) : Sound c clearing next where
  named := h.named
  distinct := h.distinct
  fresh := hfresh
  knows point hpoint := (hnext point hpoint).2
  unguarded := by
    intro point hpoint hmid
    rw [(hnext point hpoint).1] at hmid
    cases hmid
  senders hclearing _ := h.senders hclearing hcall
  guarded := h.guarded

/-- Behind its take a call has the slot empty and no worker in its way. -/
theorem behind_take {point : Point} (h : Sound c clearing (some point)) (hmid : point.midway = true)
    {c' : Client} {next : Point} (hactive : c'.ACTIVE_CONNECTION_STATE = none)
    (hnext : Knows c' next) (hdistinct : Distinct c')
    (hfresh : ∀ now, next.generation = some now → now ∉ (names c').map Prod.snd)
    (hmid' : next.midway = true) : Sound c' clearing (some next) where
  named := by
    intro a ha
    rw [hactive] at ha
    cases ha
  distinct := hdistinct
  fresh := by
    rintro _ now ⟨⟩
    exact hfresh now
  knows := by
    rintro _ ⟨⟩
    exact hnext
  unguarded _ _ _ := h.unguarded point rfl hmid
  senders _ hpoint := by
    rw [hpoint next rfl] at hmid'
    cases hmid'
  guarded := by
    rw [h.unguarded point rfl hmid]
    intro w k hw
    cases hw

/-- The take of a call empties the slot. -/
theorem taken {caller : Caller} (h : Sound c none (some (.take caller))) {c' : Client} {next : Point}
    (hactive : c'.ACTIVE_CONNECTION_STATE = none) (hnames : names c' = names c)
    (hnext : Knows c' next) (hmid : next.midway = true)
    (hgen : next.generation = (Point.take caller).generation ∨ next.generation = none) :
    Sound c' none (some next) where
  named := by
    intro a ha
    rw [hactive] at ha
    cases ha
  distinct := by
    unfold Distinct
    rw [hnames]
    exact h.distinct
  fresh := by
    rintro _ now ⟨⟩ hnow
    rw [hnames]
    obtain hgen | hgen := hgen
    · exact h.fresh _ now rfl (hgen ▸ hnow)
    · rw [hgen] at hnow
      cases hnow
  knows := by
    rintro _ ⟨⟩
    exact hnext
  unguarded _ _ _ := rfl
  senders _ hpoint := by
    rw [hpoint next rfl] at hmid
    cases hmid
  guarded := by
    intro w k hw
    cases hw

theorem senders_at_take {caller : Caller} (h : Sound c none (some (.take caller))) :
    c.MSG_TX = only c.ACTIVE_CONNECTION_STATE := by
  apply h.senders rfl
  rintro _ ⟨⟩
  rfl

theorem take_none {caller : Caller} (h : Sound c none (some (.take caller)))
    (hactive : c.ACTIVE_CONNECTION_STATE = none) : Sound c none (some caller.rest) := by
  have htx := h.senders_at_take
  rw [hactive] at htx
  cases caller with
  | connect device_id password now => exact h.taken hactive rfl ⟨hactive, htx⟩ rfl (.inl rfl)
  | disconnect device_id => exact h.taken hactive rfl ⟨hactive, htx⟩ rfl (.inr rfl)

theorem take_some {caller : Caller} (h : Sound c none (some (.take caller))) {a : Active}
    (hactive : c.ACTIVE_CONNECTION_STATE = some a) :
    Sound ({ c with ACTIVE_CONNECTION_STATE := none }.cancel a.cancel_tx) none
      (some (.remove a caller)) := by
  have htx := h.senders_at_take
  rw [hactive] at htx
  refine h.taken rfl (names_cancel a.cancel_tx) ⟨rfl, htx⟩ rfl (.inl ?_)
  cases caller <;> rfl

theorem only_removeTx {a : Active} (h : c.MSG_TX = only (some a)) :
    (c.removeTx a.device_id).MSG_TX = only none := by
  funext d
  rw [System.tx_removeTx, h]
  by_cases hd : a.device_id = d <;> simp [only, hd]

theorem remove {a : Active} {caller : Caller} (h : Sound c clearing (some (.remove a caller))) :
    Sound (c.removeTx a.device_id) clearing (some (.forget a caller)) := by
  obtain ⟨hactive, htx⟩ := h.knows _ rfl
  refine h.behind_take rfl hactive ⟨hactive, only_removeTx htx⟩ h.distinct ?_ rfl
  intro now hnow
  refine h.fresh _ now rfl ?_
  cases caller <;> exact hnow

theorem forget {a : Active} {caller : Caller} (h : Sound c clearing (some (.forget a caller))) :
    Sound (c.takeCurrent a.device_id) clearing (some caller.rest) := by
  have hframe := h.takeCurrent a.device_id
  obtain ⟨hactive, htx⟩ := hframe.knows _ rfl
  cases caller with
  | connect device_id password now =>
    exact hframe.behind_take rfl hactive ⟨hactive, htx⟩ hframe.distinct
      (fun _ hnow => hframe.fresh _ _ rfl hnow) rfl
  | disconnect device_id =>
    exact hframe.behind_take rfl hactive ⟨hactive, htx⟩ hframe.distinct
      (fun _ hnow => by cases hnow) rfl

theorem insert {device_id password : String} {now : Generation}
    (h : Sound c clearing (some (.insert device_id password now))) :
    Sound { c with
      MSG_TX := Function.update c.MSG_TX device_id (some c.workers.length)
      workers := c.workers ++ [{ device_id, generation := now, password }] } clearing
      (some (.publish ⟨device_id, now, c.workers.length⟩)) := by
  obtain ⟨hactive, htx⟩ := h.knows _ rfl
  have hnew := h.fresh _ now rfl rfl
  refine h.behind_take rfl hactive ⟨hactive, ?_, ?_⟩ ?_ (fun _ hnow => by cases hnow) rfl
  · funext d
    rw [htx]
    by_cases hd : d = device_id
    · subst hd
      simp [only]
    · simp [only, Function.update_of_ne hd, Ne.symm hd]
  · simp [Named, names]
  · have hold := h.distinct
    unfold Distinct names at hold ⊢
    rw [List.map_append, List.map_append, List.nodup_append]
    refine ⟨hold, by simp, ?_⟩
    intro g hg g' hg'
    simp only [List.map_cons, List.map_nil, List.mem_singleton] at hg'
    rw [hg']
    rintro rfl
    exact hnew hg

/-- With no call under way there is less to know. -/
theorem idle (hnamed : ∀ a, c.ACTIVE_CONNECTION_STATE = some a → Named c a)
    (hdistinct : Distinct c)
    (hsenders : clearing = none → c.MSG_TX = only c.ACTIVE_CONNECTION_STATE)
    (hguarded : ∀ w point, clearing = some (w, point) →
      c.ACTIVE_CONNECTION_STATE = none ∧ Guards c w point) : Sound c clearing none where
  named := hnamed
  distinct := hdistinct
  fresh := by rintro _ _ ⟨⟩
  knows := by rintro _ ⟨⟩
  unguarded := by rintro _ ⟨⟩
  senders hfree _ := hsenders hfree
  guarded := hguarded

/-- The new connection takes the empty slot, and its call returns. -/
theorem publish {a : Active} (h : Sound c clearing (some (.publish a))) :
    Sound { c with ACTIVE_CONNECTION_STATE := some a } clearing none := by
  obtain ⟨-, htx, hnamed⟩ := h.knows _ rfl
  have hfree := h.unguarded _ rfl rfl
  refine idle ?_ h.distinct (fun _ => htx) ?_
  · rintro _ ⟨⟩
    exact hnamed
  · rw [hfree]
    rintro _ _ ⟨⟩

/-- A call that has nothing to say of the slot any more returns. -/
theorem returns {point : Point} (h : Sound c clearing (some point))
    (htx : point.midway = true → c.MSG_TX = only c.ACTIVE_CONNECTION_STATE) :
    Sound c clearing none := by
  refine idle h.named h.distinct (fun hfree => ?_) h.guarded
  cases hmid : point.midway with
  | true => exact htx hmid
  | false =>
    apply h.senders hfree
    rintro _ ⟨⟩
    exact hmid

theorem emit {d : String} (h : Sound c clearing (some (.emit d))) (status : Int)
    (message : String) : Sound (c.callback (.disconnected d status message)) clearing none := by
  have hframe : Sound (c.callback (.disconnected d status message)) clearing (some (.emit d)) :=
    h.frame (by simp) rfl (by simp [names])
  obtain ⟨hactive, htx⟩ := hframe.knows _ rfl
  apply hframe.returns
  intro _
  rw [htx, hactive]

/-- A disconnect that found another connection has no sender to remove, but for one that a
worker is about to remove. -/
theorem drop {d : String} (h : Sound c clearing (some (.drop d))) :
    Sound (c.removeTx d) clearing (some (.drop_current d)) := by
  have hother := h.knows _ rfl
  have hkeep : ∀ d', (c.removeTx d).MSG_TX d' ≠ none → c.MSG_TX d' ≠ none := by
    intro d'
    rw [System.tx_removeTx]
    split
    · exact fun hne => absurd rfl hne
    · exact id
  refine ⟨h.named, h.distinct, ?_, ?_, ?_, fun hfree _ => ?_, fun w point hw => ?_⟩
  · rintro _ _ ⟨⟩ hnow
    cases hnow
  · rintro _ ⟨⟩
    trivial
  · rintro _ ⟨⟩ hmid
    cases hmid
  · have htx : c.MSG_TX = only c.ACTIVE_CONNECTION_STATE := by
      apply h.senders hfree
      rintro _ ⟨⟩
      rfl
    funext d'
    rw [System.tx_removeTx, htx]
    split
    · rename_i hd
      subst hd
      change none = only c.ACTIVE_CONNECTION_STATE d
      cases hactive : c.ACTIVE_CONNECTION_STATE with
      | none => rfl
      | some a => simp [only, hother a hactive]
    · rfl
  · obtain ⟨hactive, hguards⟩ := h.guarded w point hw
    refine ⟨hactive, ?_⟩
    cases point with
    | remove => exact fun d' hd' => hguards d' (hkeep d' hd')
    | forget =>
      funext d'
      rw [System.tx_removeTx, hguards]
      split <;> rfl

/-- A worker whose connection is in the slot takes it, and goes on under its guard. -/
theorem clear (h : Sound c none call) {w : WorkerId} {x : Worker}
    (hx : c.workers[w]? = some x) (hactive : c.isActive x.device_id x.generation = true) :
    Sound { c with ACTIVE_CONNECTION_STATE := none } (some (w, .remove)) call := by
  obtain ⟨a, ha, hname⟩ := (Option.any_eq_true _ _).mp hactive
  simp only [Bool.and_eq_true, decide_eq_true_eq] at hname
  -- a call behind its take would have found the slot empty
  have hmid : ∀ point, call = some point → point.midway = false := by
    intro point hpoint
    cases hmid : point.midway with
    | false => rfl
    | true =>
      have hempty := (h.knows point hpoint).empty hmid
      rw [ha] at hempty
      cases hempty
  have htx := h.senders rfl hmid
  refine ⟨?_, h.distinct, h.fresh, ?_, ?_, ?_, ?_⟩
  · rintro _ ⟨⟩
  · intro point hpoint
    apply (h.knows point hpoint).of_active (hmid point hpoint)
    rintro _ ⟨⟩
  · intro point hpoint hpmid
    rw [hmid point hpoint] at hpmid
    cases hpmid
  · intro hfree
    cases hfree
  · rintro _ _ ⟨⟩
    refine ⟨rfl, fun d hd => ⟨x.generation, ?_⟩⟩
    have hdev : x.device_id = d := by
      by_contra hne
      apply hd
      change c.MSG_TX d = none
      rw [htx, ha]
      simp [only, hname.1, hne]
    simp [names, hx, hdev]

theorem clear_remove {w : WorkerId} {x : Worker} (h : Sound c (some (w, .remove)) call)
    (hx : c.workers[w]? = some x) :
    Sound (c.removeTx x.device_id) (some (w, .forget)) call := by
  obtain ⟨hactive, hguards⟩ := h.guarded w .remove rfl
  have hmid : ∀ point, call = some point → point.midway = false := by
    intro point hpoint
    cases hmid : point.midway with
    | false => rfl
    | true => cases h.unguarded point hpoint hmid
  have hempty : (c.removeTx x.device_id).MSG_TX = only none := by
    funext d
    rw [System.tx_removeTx]
    split
    · rfl
    · rename_i hne
      by_contra hd
      obtain ⟨g, hg⟩ := hguards d hd
      rw [names, List.getElem?_map, hx] at hg
      cases hg
      exact hne rfl
  refine ⟨h.named, h.distinct, h.fresh, ?_, ?_, ?_, ?_⟩
  · intro point hpoint
    exact (h.knows point hpoint).of_active (hmid point hpoint) fun _ ha => ha
  · intro point hpoint hpmid
    rw [hmid point hpoint] at hpmid
    cases hpmid
  · intro hfree
    cases hfree
  · rintro _ _ ⟨⟩
    exact ⟨hactive, hempty⟩

theorem clear_forget {w : WorkerId} (h : Sound c (some (w, .forget)) call) :
    Sound c none call := by
  obtain ⟨hactive, htx⟩ := h.guarded w .forget rfl
  refine ⟨h.named, h.distinct, h.fresh, h.knows, fun _ _ _ => rfl, fun _ _ => ?_, ?_⟩
  · rw [hactive]
    exact htx
  · rintro _ _ ⟨⟩

end Sound

/-! ## One event -/

/-- At most one call is under way, and what holds with it holds. -/
def Good (s : System) : Prop :=
  ∃ c call, s.calls = Function.update (fun _ => none) c call ∧ Sound s.client s.clearing call

section

variable {s : System}

/-- Of at most one call, a call that is under way is the one. -/
theorem the_call {c d : CallId} {call : Option Point} {point : Point}
    (hcalls : s.calls = Function.update (fun _ => none) d call) (hc : s.calls c = some point) :
    c = d ∧ call = some point := by
  have hcd : c = d := by
    by_contra hne
    rw [hcalls, Function.update_of_ne hne] at hc
    cases hc
  subst hcd
  rw [hcalls, Function.update_self] at hc
  exact ⟨rfl, hc⟩

theorem no_call {d : CallId} {call : Option Point}
    (hcalls : s.calls = Function.update (fun _ => none) d call) (hnone : ∀ c, s.calls c = none) :
    call = none := by
  have hd := hnone d
  rwa [hcalls, Function.update_self] at hd

/-- A call begins while no other one is under way. -/
theorem Good.begins (h : Good s) (hnone : ∀ c, s.calls c = none) (point : Point)
    (hmid : point.midway = false) (hknows : Knows s.client point)
    (hfresh : ∀ now, point.generation = some now → now ∉ (names s.client).map Prod.snd)
    (c : CallId) (reconnecting : Option CallId) :
    Good { s.setCall c point with reconnecting } := by
  obtain ⟨d, call, hcalls, hsound⟩ := h
  obtain rfl := no_call hcalls hnone
  refine ⟨c, some point, ?_, ?_⟩
  · simp only [System.setCall]
    rw [funext hnone]
  · refine hsound.goes_on ?_ ?_ ?_
    · rintro _ ⟨⟩
    · rintro _ ⟨⟩
      exact ⟨hmid, hknows⟩
    · rintro _ now ⟨⟩
      exact hfresh now

/-- The only call comes to its next section. -/
theorem Good.advances (h : Good s) {c : CallId} {point : Point} (hc : s.calls c = some point)
    (hfree : point.mutex.all s.free = true) : Good (s.advance c point) := by
  obtain ⟨d, call, hcalls, hsound⟩ := h
  obtain ⟨rfl, rfl⟩ := the_call hcalls hc
  have hmove : ∀ next, Function.update s.calls c next = Function.update (fun _ => none) c next := by
    intro next
    rw [hcalls, Function.update_idem]
  cases point with
  | look device_id =>
    refine ⟨c, _, hmove _, hsound.goes_on ?_ ?_ ?_⟩
    · rintro _ ⟨⟩
      rfl
    · rintro _ ⟨⟩
      split
      · exact ⟨rfl, trivial⟩
      · rename_i hne
        refine ⟨rfl, fun a ha hd => hne ?_⟩
        rw [ha, Option.map_some, hd]
    · rintro _ now ⟨⟩
      split <;> rintro ⟨⟩
  | take caller =>
    have hclearing : s.clearing = none := by simpa [Point.mutex, System.free] using hfree
    rw [hclearing] at hsound
    simp only [System.advance]
    cases hactive : s.client.ACTIVE_CONNECTION_STATE with
    | none => exact ⟨c, _, hmove _, hclearing ▸ hsound.take_none hactive⟩
    | some a => exact ⟨c, _, hmove _, hclearing ▸ hsound.take_some hactive⟩
  | remove a caller => exact ⟨c, _, hmove _, hsound.remove⟩
  | forget a caller => exact ⟨c, _, hmove _, hsound.forget⟩
  | insert device_id password now => exact ⟨c, _, hmove _, hsound.insert⟩
  | publish a => exact ⟨c, _, hmove _, hsound.publish⟩
  | emit device_id => exact ⟨c, _, hmove _, hsound.emit 2 "Disconnected"⟩
  | drop device_id => exact ⟨c, _, hmove _, hsound.drop⟩
  | drop_current device_id =>
    exact ⟨c, _, hmove _, (hsound.takeCurrent device_id).returns fun hmid => by cases hmid⟩

theorem Good.works (h : Good s) {w : WorkerId} {x : Worker} (hx : s.client.workers[w]? = some x)
    (t : WorkerStep) (hfree : (mutexOf t).all s.free = true) : Good (s.worker w x t) := by
  obtain ⟨d, call, hcalls, hsound⟩ := h
  by_cases ht : t = .clear
  · subst ht
    have hclearing : s.clearing = none := by simpa [mutexOf, System.free] using hfree
    simp only [System.worker, System.beginClear]
    split
    · rename_i hactive
      rw [hclearing] at hsound
      exact ⟨d, call, hcalls, hsound.clear hx hactive⟩
    · exact ⟨d, call, hcalls, hsound.frame rfl rfl (names_setWorker hx (by simp) (by simp))⟩
  · have hwork : s.worker w x t = { s with
        client := (s.client.act x t).setWorker w
          (x.next (s.client.isActive x.device_id x.generation) t) } := by
      cases t with
      | clear => exact absurd rfl ht
      | _ => rfl
    have hactive : (s.client.act x t).ACTIVE_CONNECTION_STATE =
        s.client.ACTIVE_CONNECTION_STATE := by
      cases t with
      | clear => exact absurd rfl ht
      | _ => simp [Client.act, effect_record]
    have hx' : (s.client.act x t).workers[w]? = some x := by simpa using hx
    have hnames : names ((s.client.act x t).setWorker w
        (x.next (s.client.isActive x.device_id x.generation) t)) = names s.client := by
      rw [names_setWorker hx' (by simp) (by simp)]
      simp [names]
    rw [hwork]
    exact ⟨d, call, hcalls, hsound.frame hactive (System.tx_act s.client x ht) hnames⟩

theorem Good.clears_on (h : Good s) : Good (s.step .clear_on) := by
  obtain ⟨d, call, hcalls, hsound⟩ := h
  simp only [System.step]
  split
  · rename_i w point hclearing
    split
    · rename_i x hx
      rw [hclearing] at hsound
      cases point with
      | remove => exact ⟨d, call, hcalls, hsound.clear_remove hx⟩
      | forget =>
        have hx' : (s.client.takeCurrent x.device_id).workers[w]? = some x := by simpa using hx
        have hdone := (hsound.clear_forget.takeCurrent x.device_id)
        exact ⟨d, call, hcalls, hdone.frame rfl rfl (names_setWorker hx' (by simp) (by simp))⟩
    · exact ⟨d, call, hcalls, hsound⟩
  · exact ⟨d, call, hcalls, hsound⟩

theorem fresh_generation {c : Client} {now : Generation}
    (h : ∀ x ∈ c.workers, x.generation ≠ now) : now ∉ (names c).map Prod.snd := by
  simp only [names, List.map_map, List.mem_map, not_exists, not_and]
  exact h

theorem Good.step (h : Good s) {e : Event} (hp : s.possible e = true) (hu : Undivided s e) :
    Good (s.step e) := by
  cases e with
  | connect c device_id password now =>
    refine h.begins hu.1 (.take (.connect device_id password now)) rfl trivial ?_ c s.reconnecting
    rintro _ ⟨⟩
    exact fresh_generation hu.2
  | disconnect c device_id =>
    refine h.begins hu (.look device_id) rfl trivial ?_ c s.reconnecting
    rintro _ ⟨⟩
  | advance c =>
    obtain ⟨point, hc, hfree⟩ := (Option.any_eq_true _ _).mp hp
    simp only [System.step, hc]
    exact h.advances hc hfree
  | worker w t =>
    simp only [System.possible, Bool.and_eq_true] at hp
    obtain ⟨x, hx, -⟩ := (Option.any_eq_true _ _).mp hp.1.1
    simp only [System.step, hx]
    exact h.works hx t hp.2
  | clear_on => exact h.clears_on
  | plugin call =>
    obtain ⟨d, call', hcalls, hsound⟩ := h
    exact ⟨d, call', hcalls, hsound.frame rfl rfl rfl⟩
  | farm_clear => exact hu.elim
  | farm_reconnect c now =>
    simp only [System.step]
    split
    · rename_i printer _
      refine h.begins hu.1 (.take (.connect printer "" now)) rfl trivial ?_ c (some c)
      rintro _ ⟨⟩
      exact fresh_generation hu.2
    · exact h

theorem Good.named (h : Good s) {a : Active} (ha : s.client.ACTIVE_CONNECTION_STATE = some a) :
    Named s.client a := by
  obtain ⟨_, _, _, hsound⟩ := h
  exact hsound.named a ha

/-- With no call under way, a connection in the slot has the only sender. -/
theorem Good.owns (h : Good s) (hnone : ∀ c, s.calls c = none) {a : Active}
    (ha : s.client.ACTIVE_CONNECTION_STATE = some a) : Owns s a := by
  refine ⟨ha, fun d => ?_, named_iff.mp (h.named ha)⟩
  obtain ⟨c, call, hcalls, hsound⟩ := h
  obtain rfl := no_call hcalls hnone
  have hfree : s.clearing = none := by
    cases hclearing : s.clearing with
    | none => rfl
    | some p =>
      obtain ⟨hempty, -⟩ := hsound.guarded p.1 p.2 hclearing
      rw [ha] at hempty
      cases hempty
  have htx := hsound.senders hfree (by rintro _ ⟨⟩)
  rw [htx, ha]
  simp [only, eq_comm]

/-- The end of another worker leaves the slot as it is. -/
theorem Good.active_clear (h : Good s) {a : Active} {w : WorkerId}
    (ha : s.client.ACTIVE_CONNECTION_STATE = some a) (hw : a.cancel_tx ≠ w) :
    (s.step (.worker w .clear)).client.ACTIVE_CONNECTION_STATE = some a := by
  rw [System.active_step, System.activeAfter]
  split
  · rename_i hany
    obtain ⟨x, hx, hactive⟩ := (Option.any_eq_true _ _).mp hany
    obtain ⟨b, hb, hname⟩ := (Option.any_eq_true _ _).mp hactive
    simp only [Bool.and_eq_true, decide_eq_true_eq] at hname
    rw [ha, Option.some.injEq] at hb
    subst hb
    obtain ⟨_, _, _, hsound⟩ := h
    exact absurd (own_worker hsound.distinct (hsound.named a ha) hx hname.2.symm).symm hw
  · exact ha

/-- When a connect returns, no call is under way. -/
theorem Good.published (h : Good s) {e : Event} {a : Active} (ha : s.publishes e = some a) :
    ∀ c, (s.step e).calls c = none := by
  obtain ⟨d, call, hcalls, -⟩ := h
  cases e with
  | advance c =>
    simp only [System.publishes] at ha
    split at ha
    · rename_i b hc
      obtain ⟨rfl, -⟩ := the_call hcalls hc
      intro c'
      simp only [System.step, hc, System.advance, System.finish, System.publish, hcalls,
        Function.update_idem]
      by_cases hc' : c' = c <;> simp [hc']
    · cases ha
  | _ => cases ha

end

/-! ## Runs -/

theorem owner_snoc (es : List Event) (e : Event) :
    owner (es ++ [e]) = ownerAfter (systemAfter es) (owner es) e := by
  have hstate : ∀ es : List Event, (after (fun (p : System × Option Active) e =>
      (p.1.step e, ownerAfter p.1 p.2 e)) ({}, none) es).1 = systemAfter es := by
    intro es
    induction es using List.reverseRecOn with
    | nil => rfl
    | append_singleton es e ih => simp [ih]
  simp [owner, hstate]

/-- The owner is in the slot, and no call is under way. -/
def Mine (s : System) (o : Option Active) : Prop :=
  ∀ a, o = some a → s.client.ACTIVE_CONNECTION_STATE = some a ∧ ∀ c, s.calls c = none

theorem mine_step {s : System} {o : Option Active} (h : Good s) (hm : Mine s o) {e : Event}
    (hu : Undivided s e) : Mine (s.step e) (ownerAfter s o e) := by
  intro a ha
  cases e with
  | connect c device_id password now => cases ha
  | disconnect c device_id => cases ha
  | farm_reconnect c now => cases ha
  | advance c =>
    simp only [ownerAfter] at ha
    cases hpub : s.publishes (.advance c) with
    | some b =>
      rw [hpub, Option.some_or, Option.some.injEq] at ha
      subst ha
      refine ⟨?_, h.published hpub⟩
      rw [System.active_step]
      simp only [System.publishes] at hpub
      split at hpub
      · rename_i b' hc
        cases hpub
        simp [System.activeAfter, hc]
      · cases hpub
    | none =>
      rw [hpub, Option.none_or] at ha
      obtain ⟨hactive, hnone⟩ := hm a ha
      simp only [System.step, hnone c]
      exact ⟨hactive, hnone⟩
  | worker w t =>
    by_cases ht : t = .clear
    · subst ht
      simp only [ownerAfter, Option.filter_eq_some_iff, decide_eq_true_eq] at ha
      obtain ⟨hactive, hnone⟩ := hm a ha.1
      refine ⟨h.active_clear hactive ha.2, ?_⟩
      rw [System.calls_worker]
      exact hnone
    · have ho : o = some a := by
        cases t with
        | clear => exact absurd rfl ht
        | _ => simpa [ownerAfter, System.publishes] using ha
      obtain ⟨hactive, hnone⟩ := hm a ho
      rw [System.active_step, System.calls_worker]
      refine ⟨?_, hnone⟩
      cases t with
      | clear => exact absurd rfl ht
      | _ => exact hactive
  | clear_on =>
    obtain ⟨hactive, hnone⟩ := hm a (by simpa [ownerAfter, System.publishes] using ha)
    rw [System.active_step, System.calls_clear_on]
    exact ⟨hactive, hnone⟩
  | plugin call => exact hm a (by simpa [ownerAfter, System.publishes] using ha)
  | farm_clear => exact hu.elim

/-- A connect that has returned owns the slot of the active connection and the only sender,
until the next call begins or its own worker ends, whatever the workers of earlier connects
do. -/
theorem a_returned_connect_owns_the_slot (r : UndividedRun) :
    Always (fun es => ∀ a, owner es = some a → Owns (systemAfter es) a) r.events := by
  have hstart : Good ({} : System) ∧ Mine {} none := by
    refine ⟨⟨0, none, ?_, ?_⟩, ?_⟩
    · simp
    · refine Sound.idle ?_ (by simp [Distinct, names]) (fun _ => rfl) ?_
      · rintro _ ⟨⟩
      · rintro _ _ ⟨⟩
    · rintro _ ⟨⟩
  have hinv : Always (fun es => Good (systemAfter es) ∧ Mine (systemAfter es) (owner es))
      r.events := by
    refine always_of_steps hstart (fun es e _ hes he => ?_) (r.possible.and r.undivided)
    rw [systemAfter_snoc, owner_snoc]
    exact ⟨hes.1.step he.1 he.2, mine_step hes.1 hes.2 he.2⟩
  refine hinv.mono fun es hes a ha => ?_
  obtain ⟨hactive, hnone⟩ := hes.2 a ha
  exact hes.1.owns hnone hactive

/-- The worker of an earlier connect to the same device ends after the newer connect has
returned. -/
def lateEnd : UndividedRun where
  events := [.connect 0 "printer-1" "" 1, .advance 0, .advance 0, .advance 0,
    .connect 1 "printer-1" "" 2, .advance 1, .advance 1, .advance 1, .advance 1, .advance 1,
    .worker 0 (.dial false), .worker 0 .check, .worker 0 .clear]
  possible := by decide
  undivided := by decide

theorem the_newer_connect_owns_the_slot :
    Owns (systemAfter lateEnd.events) ⟨"printer-1", 2, 1⟩ :=
  (a_returned_connect_owns_the_slot lateEnd).last _ (by decide)

end bambu_farm_client.connection_calls
