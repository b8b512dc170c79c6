-- The laws of the session state by itself, over any sequence of its
-- operations: the two flags of a connection exclude each other, a disconnect
-- is announced once for each connection, an autoconnect is claimed once for
-- each selection, and a connect starts once until something ends it.
import BambuFarm.SessionState

open runs

namespace bambu_farm_client.session_state

/-! ## The operations -/

/-- The member functions of `SessionState`. The ones that are `const` leave the state as
it is. -/
inductive Operation
  | load_selected_device (dev_id : String)
  | set_user_selected_device (dev_id : String)
  | selected_device
  | has_connected_selected_device
  | connected_selected_device
  | begin_connect (dev_id : String)
  | should_ignore_disconnect
  | disconnect_target
  | mark_connected (dev_id : String)
  | mark_disconnected (failed : Bool)
  | claim_autoconnect_target (discovered_device_id : String)
  | clear_after_logout
  deriving DecidableEq

def operate (s : SessionState) : Operation → SessionState
  | .load_selected_device dev_id => s.load_selected_device dev_id
  | .set_user_selected_device dev_id => s.set_user_selected_device dev_id
  | .begin_connect dev_id => (s.begin_connect dev_id).2
  | .mark_connected dev_id => s.mark_connected dev_id
  | .mark_disconnected failed => (s.mark_disconnected failed).2
  | .claim_autoconnect_target discovered => (s.claim_autoconnect_target discovered).2
  | .clear_after_logout => s.clear_after_logout
  | _ => s

/-- The session state after the operations. -/
def operated (ops : List Operation) : SessionState := after operate {} ops

/-! ## The laws -/

/-- The operation ends what a connect to `d` has begun: a disconnect, a logout, or an
operation that sets the selected device to something other than `d`. -/
def Ends (d : String) (s : SessionState) (op : Operation) : Prop :=
  (∃ failed, op = .mark_disconnected failed) ∨ op = .clear_after_logout ∨
    (s.selected_device_ = d ∧ (operate s op).selected_device_ ≠ d)

/-- `first` and then `second` are operations of `ops`, with `between` in between. -/
def Between (ops before : List Operation) (first : Operation) (between : List Operation)
    (second : Operation) : Prop :=
  ∃ rest, ops = before ++ first :: (between ++ second :: rest)

/-- The discipline of the session state over a sequence of operations. -/
structure OneShot (ops : List Operation) : Prop where
  exclusive : Always (fun pre => ¬ ((operated pre).connect_in_progress_ = true ∧
    (operated pre).printer_connected_ = true)) ops
  announced : ∀ before between,
    Between ops before (.mark_disconnected false) between (.mark_disconnected false) →
    ((operated before).mark_disconnected false).1 = true →
    ((operated (before ++ .mark_disconnected false :: between)).mark_disconnected false).1 = true →
    ∃ d, .mark_connected d ∈ between
  claimed : ∀ before between c d,
    Between ops before (.claim_autoconnect_target c) between (.claim_autoconnect_target d) →
    ((operated before).claim_autoconnect_target c).1 ≠ "" →
    ((operated (before ++ .claim_autoconnect_target c :: between)).claim_autoconnect_target d).1
      ≠ "" →
    ∃ e, e ≠ "" ∧ (.load_selected_device e ∈ between ∨ .set_user_selected_device e ∈ between)
  selected : ∀ before rest d, ops = before ++ .claim_autoconnect_target d :: rest →
    ((operated before).claim_autoconnect_target d).1 ≠ "" →
    ((operated before).claim_autoconnect_target d).1 = (operated before).selected_device
  started : ∀ before between d, Between ops before (.begin_connect d) between (.begin_connect d) →
    ((operated before).begin_connect d).1 = .Start →
    ((operated (before ++ .begin_connect d :: between)).begin_connect d).1 = .Start →
    ∃ pre op post, between = pre ++ op :: post ∧
      Ends d (operated (before ++ .begin_connect d :: pre)) op

/-! ## What one operation can do -/

theorem operated_append (before between : List Operation) (op : Operation) :
    operated (before ++ op :: between) = after operate (operate (operated before) op) between := by
  unfold operated
  rw [after_append, after_cons]

theorem operate_begin_connect (s : SessionState) (d : String) :
    operate s (.begin_connect d) = s ∨ operate s (.begin_connect d) = ⟨d, false, false, true⟩ := by
  rcases begin_connect_cases s d with ⟨-, hs⟩ | hs
  · exact Or.inl hs
  · exact Or.inr (congrArg Prod.snd hs)

theorem operate_claim (s : SessionState) (d : String) :
    operate s (.claim_autoconnect_target d) = s ∨
      operate s (.claim_autoconnect_target d) = { s with auto_connect_pending_ := false } := by
  simp only [operate, SessionState.claim_autoconnect_target]
  split_ifs
  · exact Or.inl rfl
  · exact Or.inr rfl

theorem begin_connect_start_iff (s : SessionState) (d : String) :
    (s.begin_connect d).1 = .Start ↔ ¬ (s.selected_device_ = d ∧
      (s.printer_connected_ = true ∨ s.connect_in_progress_ = true)) := by
  unfold SessionState.begin_connect
  split_ifs with h1 h2
  · simp [h1]
  · simp [h2]
  · simp only [true_iff]
    rintro ⟨hd, hc | hp⟩
    · exact h1 ⟨hd, hc⟩
    · exact h2 ⟨hd, hp⟩

theorem claim_pending {s : SessionState} {d : String}
    (h : (s.claim_autoconnect_target d).1 ≠ "") :
    s.auto_connect_pending_ = true ∧
      s.claim_autoconnect_target d =
        (s.selected_device_, { s with auto_connect_pending_ := false }) := by
  unfold SessionState.claim_autoconnect_target at h ⊢
  split_ifs at h ⊢ with hs
  · exact absurd rfl h
  · push Not at hs
    exact ⟨by simpa using hs.1, rfl⟩

/-- An operation never sets one flag of a connection without clearing the other one. -/
theorem exclusive_step {s : SessionState} (op : Operation)
    (h : ¬ (s.connect_in_progress_ = true ∧ s.printer_connected_ = true)) :
    ¬ ((operate s op).connect_in_progress_ = true ∧ (operate s op).printer_connected_ = true) := by
  cases op with
  | begin_connect d =>
    rcases operate_begin_connect s d with hs | hs
    · rwa [hs]
    · simp [hs]
  | mark_connected d => simp [operate, SessionState.mark_connected]
  | mark_disconnected failed => simp [operate, SessionState.mark_disconnected]
  | claim_autoconnect_target d =>
    rcases operate_claim s d with hs | hs
    · rwa [hs]
    · rwa [hs]
  | clear_after_logout => simp [operate, SessionState.clear_after_logout]
  | _ => exact h

/-- Only `mark_connected` sets the connected flag. -/
theorem connected_switch (s : SessionState) (op : Operation) (h : ¬ s.printer_connected_ = true)
    (h' : (operate s op).printer_connected_ = true) : ∃ d, op = .mark_connected d := by
  cases op with
  | mark_connected d => exact ⟨d, rfl⟩
  | begin_connect d =>
    rcases operate_begin_connect s d with hs | hs
    · exact absurd (hs ▸ h') h
    · simp [hs] at h'
  | claim_autoconnect_target d =>
    rcases operate_claim s d with hs | hs
    · exact absurd (hs ▸ h') h
    · rw [hs] at h'
      exact absurd h' h
  | mark_disconnected failed => simp [operate, SessionState.mark_disconnected] at h'
  | clear_after_logout => simp [operate, SessionState.clear_after_logout] at h'
  | _ => exact absurd h' h

/-- Only a selection sets the pending flag. -/
theorem pending_switch (s : SessionState) (op : Operation) (h : ¬ s.auto_connect_pending_ = true)
    (h' : (operate s op).auto_connect_pending_ = true) :
    ∃ e, e ≠ "" ∧ (op = .load_selected_device e ∨ op = .set_user_selected_device e) := by
  cases op with
  | load_selected_device e =>
    exact ⟨e, by simpa [operate, SessionState.load_selected_device] using h', Or.inl rfl⟩
  | set_user_selected_device e =>
    exact ⟨e, by simpa [operate, SessionState.set_user_selected_device] using h', Or.inr rfl⟩
  | begin_connect d =>
    rcases operate_begin_connect s d with hs | hs
    · exact absurd (hs ▸ h') h
    · simp [hs] at h'
  | claim_autoconnect_target d =>
    rcases operate_claim s d with hs | hs
    · exact absurd (hs ▸ h') h
    · simp [hs] at h'
  | clear_after_logout => simp [operate, SessionState.clear_after_logout] at h'
  | _ => exact absurd h' h

/-- A connect to `d` that was refused before starts again only after its end. -/
theorem start_switch (d : String) (s : SessionState) (op : Operation)
    (h : ¬ (s.begin_connect d).1 = .Start) (h' : ((operate s op).begin_connect d).1 = .Start) :
    Ends d s op := by
  rw [begin_connect_start_iff, not_not] at h
  rw [begin_connect_start_iff] at h'
  by_cases hd : (operate s op).selected_device_ = d
  · cases op with
    | mark_disconnected failed => exact Or.inl ⟨failed, rfl⟩
    | clear_after_logout => exact Or.inr (Or.inl rfl)
    | mark_connected e => exact absurd ⟨hd, Or.inl rfl⟩ h'
    | begin_connect e =>
      rcases operate_begin_connect s e with hs | hs
      · rw [hs] at h'
        exact absurd h h'
      · exact absurd ⟨hd, Or.inr (by simp [hs])⟩ h'
    | claim_autoconnect_target e =>
      rcases operate_claim s e with hs | hs
      · rw [hs] at h'
        exact absurd h h'
      · rw [hs] at h'
        exact absurd h h'
    | load_selected_device e => exact absurd ⟨hd, h.2⟩ h'
    | set_user_selected_device e => exact absurd ⟨hd, h.2⟩ h'
    | _ => exact absurd h h'
  · exact Or.inr (Or.inr ⟨h.1, hd⟩)

/-! ## The discipline over whole runs -/

theorem flags_exclusive (ops : List Operation) :
    Always (fun pre => ¬ ((operated pre).connect_in_progress_ = true ∧
      (operated pre).printer_connected_ = true)) ops := by
  refine always_of_steps (C := fun _ _ => True) ?_ ?_ ?_
  · simp [operated]
  · intro pre op _ hpre _
    unfold operated at hpre ⊢
    rw [after_snoc]
    exact exclusive_step op hpre
  · intro i _
    trivial

/-- Every sequence of operations keeps the discipline. -/
theorem each_operation_fires_once (ops : List Operation) : OneShot ops where
  exclusive := flags_exclusive ops
  announced := by
    intro before between _ _ h
    rw [operated_append] at h
    have hoff : ¬ (operate (operated before)
        (.mark_disconnected false)).printer_connected_ = true := by
      simp [operate, SessionState.mark_disconnected]
    have hon : (after operate (operate (operated before) (.mark_disconnected false))
        between).printer_connected_ = true := by
      simpa [SessionState.mark_disconnected] using h
    obtain ⟨pre, op, post, rfl, d, rfl⟩ := exists_switch connected_switch hoff hon
    exact ⟨d, by simp⟩
  claimed := by
    intro before between c d _ h1 h2
    rw [operated_append] at h2
    have hoff : ¬ (operate (operated before)
        (.claim_autoconnect_target c)).auto_connect_pending_ = true := by
      simp [operate, (claim_pending h1).2]
    obtain ⟨pre, op, post, rfl, e, he, hop⟩ :=
      exists_switch pending_switch hoff (claim_pending h2).1
    rcases hop with rfl | rfl
    · exact ⟨e, he, Or.inl (by simp)⟩
    · exact ⟨e, he, Or.inr (by simp)⟩
  selected := by
    intro before rest d _ h
    rw [(claim_pending h).2]
    rfl
  started := by
    intro before between d _ h1 h2
    rw [operated_append] at h2
    have hoff : ¬ ((operate (operated before) (.begin_connect d)).begin_connect d).1 = .Start := by
      rw [begin_connect_start_iff, not_not]
      rcases begin_connect_cases (operated before) d with ⟨hn, -⟩ | hs
      · exact absurd h1 hn
      · simp [operate, hs]
    obtain ⟨pre, op, post, rfl, hop⟩ := exists_switch (start_switch d) hoff h2
    refine ⟨pre, op, post, rfl, ?_⟩
    rwa [operated_append]

end bambu_farm_client.session_state
