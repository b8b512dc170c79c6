-- The addresses at which the server looks for printers
-- (`local_ipv4_candidates` of `main.rs`): the hosts of the private networks of
-- its own interfaces, in order and each of them once.
import BambuFarm.Netmasks
import BambuFarm.Printers
import Mathlib.Data.List.Destutter
import Mathlib.Order.Interval.Finset.Nat

open netmasks
open bambu_farm_server.printers (Ipv4Addr)

namespace bambu_farm_server.discovery

/-! ## The model -/

/-- The first octet is 127. -/
def is_loopback (a : Ipv4Addr) : Bool := a.octet 0 = 127

/-- `10.0.0.0/8`, `172.16.0.0/12` and `192.168.0.0/16` -/
def is_private (a : Ipv4Addr) : Bool :=
  a.octet 0 = 10 || (a.octet 0 = 172 && 16 ≤ a.octet 1 && a.octet 1 ≤ 31) ||
    (a.octet 0 = 192 && a.octet 1 = 168)

/-- The address of an interface. -/
inductive IfAddr
  | V4 (ip netmask : Ipv4Addr)
  | V6
  deriving DecidableEq

/-- An addition of `u32`, and `none` where it overflows. -/
def checked_add (a b : BitVec 32) : Option (BitVec 32) :=
  if a.toNat + b.toNat < 2 ^ 32 then some (a + b) else none

/-- `start..stop` -/
def range (start stop : BitVec 32) : List (BitVec 32) :=
  (List.range' start.toNat (stop.toNat - start.toNat)).map (BitVec.ofNat 32)

/-- The netmask that is used, a `/24` in the place of a shorter one. -/
def effective_mask (netmask : Ipv4Addr) : BitVec 32 :=
  let prefix_len := netmask.bits.cpop.toNat
  if prefix_len < 24 then 0xFFFFFF00#32 else netmask.bits

/-- The hosts of a network but `ip`, behind what was found so far. -/
def push_hosts (candidates : List Ipv4Addr) (ip : Ipv4Addr) (effective_mask : BitVec 32) :
    Option (List Ipv4Addr) :=
  let network := ip.bits &&& effective_mask
  let broadcast := network ||| ~~~effective_mask
  match checked_add network 1 with
  | none => none
  | some first =>
    if broadcast ≤ first then some candidates
    else some (candidates ++ ((range first broadcast).map Ipv4Addr.mk).filter (· ≠ ip))

/-- The round of the loop for one interface. -/
def push_candidates (candidates : List Ipv4Addr) : IfAddr → Option (List Ipv4Addr)
  | .V6 => some candidates
  | .V4 ip netmask =>
    if is_loopback ip || !is_private ip then some candidates
    else push_hosts candidates ip (effective_mask netmask)

/-- The order of addresses, that of their octets. -/
def le (a b : Ipv4Addr) : Bool := a.bits ≤ b.bits

/-- `Vec::dedup` keeps the first of each group of equal neighbours. -/
def dedup (candidates : List Ipv4Addr) : List Ipv4Addr := candidates.destutter (· ≠ ·)

/-- `interfaces` is what `get_if_addrs` gives. The result is `none` where the arithmetic
overflows. -/
def local_ipv4_candidates (interfaces : Option (List IfAddr)) : Option (List Ipv4Addr) :=
  match interfaces with
  | none => some []
  | some interfaces =>
    match interfaces.foldlM push_candidates [] with
    | none => none
    | some candidates => some (dedup (candidates.mergeSort le))

/-! ## What it is for -/

/-- The netmask of the first `length` bits. -/
def netmask (length : Nat) : Ipv4Addr := ⟨clearing 32 (32 - length)⟩

/-- An interface with a contiguous netmask. -/
def Contiguous : IfAddr → Prop
  | .V4 _ m => ∃ length ≤ 32, m = netmask length
  | .V6 => True

/-- `a` is another host in the network of `ip`, of which at most the last octet is
looked through. -/
def Neighbour (ip m a : Ipv4Addr) : Prop :=
  ip.bits &&& m.bits < a.bits ∧ a.bits < ip.bits &&& m.bits ||| ~~~m.bits ∧ a ≠ ip

instance (ip m a : Ipv4Addr) : Decidable (Neighbour ip m a) := by
  unfold Neighbour
  infer_instance

/-- An interface with `ip` and a netmask of `length` bits brings in `a`. -/
def Brings (ip : Ipv4Addr) (length : Nat) (a : Ipv4Addr) : Prop :=
  is_private ip = true ∧ is_loopback ip = false ∧
    Neighbour ip (if 24 ≤ length then netmask length else netmask 24) a

instance (ip : Ipv4Addr) (length : Nat) (a : Ipv4Addr) : Decidable (Brings ip length a) := by
  unfold Brings
  infer_instance

/-- The candidates are just the neighbours of the interfaces. -/
structure Covers (interfaces : List IfAddr) (candidates : List Ipv4Addr) : Prop where
  increasing : candidates.Pairwise fun a b => a.bits < b.bits
  mem_iff : ∀ a, a ∈ candidates ↔
    ∃ ip length, length ≤ 32 ∧ .V4 ip (netmask length) ∈ interfaces ∧ Brings ip length a
  is_private : ∀ a ∈ candidates, is_private a = true
  few : ∀ ip length, length ≤ 32 → .V4 ip (netmask length) ∈ interfaces →
    (candidates.filter fun a => Brings ip length a).length ≤ 254

/-! ## The order -/

section

variable {α : Type*} [DecidableEq α] {le : α → α → Bool}

theorem mem_destutter'_ne (a b : α) (l : List α) :
    a ∈ l.destutter' (· ≠ ·) b ↔ a = b ∨ a ∈ l := by
  induction l generalizing b with
  | nil => simp
  | cons c l ih =>
    by_cases hbc : b = c
    · rw [List.destutter'_cons_neg _ (not_not_intro hbc), ih, hbc, List.mem_cons]
      tauto
    · rw [List.destutter'_cons_pos _ hbc, List.mem_cons, ih, List.mem_cons]

theorem mem_destutter_ne (a : α) (l : List α) : a ∈ l.destutter (· ≠ ·) ↔ a ∈ l := by
  cases l with
  | nil => simp
  | cons b l => rw [List.destutter_cons', mem_destutter'_ne, List.mem_cons]

/-- A sorted list without equal neighbours increases strictly. -/
theorem destutter_increasing
    (hanti : ∀ a b, le a b → le b a → a = b) {l : List α} (h : l.Pairwise fun a b => le a b) :
    (l.destutter (· ≠ ·)).Pairwise fun a b => le a b = true ∧ a ≠ b := by
  have hle := h.sublist (List.destutter_sublist (· ≠ ·) l)
  have hne := List.isChain_destutter (· ≠ ·) l
  generalize l.destutter (· ≠ ·) = kept at hle hne
  induction kept with
  | nil => exact List.Pairwise.nil
  | cons a kept ih =>
    rw [List.pairwise_cons] at hle
    rw [List.isChain_cons] at hne
    have hkept := ih hle.2 hne.2
    rw [List.pairwise_cons]
    refine ⟨fun c hc => ⟨hle.1 c hc, ?_⟩, hkept⟩
    rintro rfl
    cases kept with
    | nil => simp at hc
    | cons b kept =>
      -- the head differs from its neighbour, which is below all that follows
      have hab : a ≠ b := hne.1 b (by simp)
      rcases List.mem_cons.mp hc with rfl | hmem
      · exact hab rfl
      · exact hab (hanti a b (hle.1 b (by simp)) ((List.pairwise_cons.mp hkept).1 a hmem).1)

end

/-! ## One network -/

theorem mem_range {start stop x : BitVec 32} :
    x ∈ range start stop ↔ start ≤ x ∧ x < stop := by
  unfold range
  rw [List.mem_map, BitVec.le_def, BitVec.lt_def]
  constructor
  · rintro ⟨n, hn, rfl⟩
    rw [List.mem_range'_1] at hn
    have hlt : n < 2 ^ 32 := by
      have := stop.isLt
      omega
    rw [BitVec.toNat_ofNat, Nat.mod_eq_of_lt hlt]
    omega
  · rintro ⟨hlow, hhigh⟩
    refine ⟨x.toNat, ?_, by simp⟩
    rw [List.mem_range'_1]
    omega

/-- The ones of a contiguous netmask are its length. -/
theorem cpop_netmask : ∀ length : Fin 33, (netmask length).bits.cpop.toNat = length := by
  decide +kernel

/-- The mask that the code takes is the netmask, or that of a `/24`. -/
theorem effective_mask_netmask {length : Nat} (h : length ≤ 32) :
    effective_mask (netmask length) =
      (if 24 ≤ length then netmask length else netmask 24).bits := by
  have hones : (netmask length).bits.cpop.toNat = length := cpop_netmask ⟨length, by omega⟩
  unfold effective_mask
  rw [hones]
  by_cases hshort : length < 24
  · rw [if_pos hshort, if_neg (by omega)]
    decide
  · rw [if_neg hshort, if_pos (by omega)]

/-- It clears at most the last octet. -/
theorem clearing_of_length (length : Nat) :
    ∃ k ≤ 8, (if 24 ≤ length then netmask length else netmask 24) = ⟨clearing 32 k⟩ := by
  split
  · exact ⟨32 - length, by omega, rfl⟩
  · exact ⟨8, le_refl 8, rfl⟩

theorem netmask_injective {l l' : Nat} (h : l ≤ 32) (h' : l' ≤ 32) (heq : netmask l = netmask l') :
    l = l' := by
  have hones : (netmask l).bits.cpop.toNat = l := cpop_netmask ⟨l, by omega⟩
  have hones' : (netmask l').bits.cpop.toNat = l' := cpop_netmask ⟨l', by omega⟩
  rw [← hones, heq, hones']

/-- Where an address lies, for a mask that clears `k` bits. -/
theorem neighbour_iff (ip a : Ipv4Addr) {k : Nat} (hk : k ≤ 8) :
    Neighbour ip ⟨clearing 32 k⟩ a ↔
      ip.bits.toNat / 2 ^ k * 2 ^ k < a.bits.toNat ∧
        a.bits.toNat < ip.bits.toNat / 2 ^ k * 2 ^ k + (2 ^ k - 1) ∧ a ≠ ip := by
  unfold Neighbour
  rw [BitVec.lt_def, BitVec.lt_def]
  have hnetwork := toNat_network ip.bits k
  have hbroadcast := toNat_broadcast ip.bits (k := k) (by omega)
  unfold network at hnetwork
  unfold broadcast at hbroadcast
  rw [hnetwork, hbroadcast]

theorem octet_zero (a : Ipv4Addr) : a.octet 0 = a.bits.toNat / 2 ^ 24 % 2 ^ 8 := by
  unfold Ipv4Addr.octet
  rw [BitVec.extractLsb'_toNat, Nat.shiftRight_eq_div_pow]

theorem octet_one (a : Ipv4Addr) : a.octet 1 = a.bits.toNat / 2 ^ 16 % 2 ^ 8 := by
  unfold Ipv4Addr.octet
  rw [BitVec.extractLsb'_toNat, Nat.shiftRight_eq_div_pow]

/-- A private address is known by its first two octets. -/
theorem is_private_congr {a b : Ipv4Addr} (h : a.bits.toNat / 2 ^ 16 = b.bits.toNat / 2 ^ 16) :
    is_private a = is_private b := by
  have hzero : a.octet 0 = b.octet 0 := by
    rw [octet_zero, octet_zero]
    omega
  have hone : a.octet 1 = b.octet 1 := by
    rw [octet_one, octet_one, h]
  unfold is_private
  rw [hzero, hone]

/-- Private addresses are far from the end of the address space. -/
theorem toNat_of_is_private {a : Ipv4Addr} (h : is_private a = true) :
    a.bits.toNat < 193 * 2 ^ 24 := by
  have hoctet : a.octet 0 ≤ 192 := by
    simp only [is_private, Bool.or_eq_true, Bool.and_eq_true, decide_eq_true_eq] at h
    omega
  rw [octet_zero] at hoctet
  have hlt := a.bits.isLt
  omega

/-- A neighbour shares the first three octets. -/
theorem Neighbour.block {ip a : Ipv4Addr} {k : Nat} (hk : k ≤ 8)
    (h : Neighbour ip ⟨clearing 32 k⟩ a) : a.bits.toNat / 2 ^ k = ip.bits.toNat / 2 ^ k := by
  rw [neighbour_iff ip a hk] at h
  have hpos := Nat.two_pow_pos k
  apply Nat.div_eq_of_lt_le
  · omega
  · rw [Nat.add_mul, Nat.one_mul]
    omega

theorem Neighbour.is_private {ip a : Ipv4Addr} {k : Nat} (hk : k ≤ 8)
    (h : Neighbour ip ⟨clearing 32 k⟩ a) : is_private a = is_private ip := by
  apply is_private_congr
  have hsplit : 2 ^ 16 = 2 ^ k * 2 ^ (16 - k) := by
    rw [← Nat.pow_add, Nat.add_sub_cancel' (by omega)]
  rw [hsplit, ← Nat.div_div_eq_div_mul, ← Nat.div_div_eq_div_mul, h.block hk]

/-! ## One round of the loop -/

/-- The addresses that an interface brings in. -/
def BroughtBy (iface : IfAddr) (a : Ipv4Addr) : Prop :=
  ∃ ip length, length ≤ 32 ∧ iface = .V4 ip (netmask length) ∧ Brings ip length a

theorem broughtBy_iff {ip a : Ipv4Addr} {length : Nat} (h : length ≤ 32) :
    BroughtBy (.V4 ip (netmask length)) a ↔ Brings ip length a := by
  constructor
  · rintro ⟨ip', length', h', heq, hbrings⟩
    injection heq with hip hmask
    subst hip
    rwa [netmask_injective h h' hmask]
  · intro hbrings
    exact ⟨ip, length, h, rfl, hbrings⟩

theorem brings_of_private {ip a : Ipv4Addr} {length : Nat}
    (hprivate : ¬ (is_loopback ip || !is_private ip) = true) :
    Brings ip length a ↔
      Neighbour ip (if 24 ≤ length then netmask length else netmask 24) a := by
  simp only [Bool.or_eq_true, Bool.not_eq_true', not_or, Bool.not_eq_true,
    Bool.not_eq_false] at hprivate
  unfold Brings
  rw [hprivate.1, hprivate.2]
  simp

theorem not_brings {ip : Ipv4Addr} {length : Nat} (h : (is_loopback ip || !is_private ip) = true)
    (a : Ipv4Addr) : ¬ Brings ip length a := by
  rintro ⟨hprivate, hloopback, -⟩
  simp [hprivate, hloopback] at h

theorem checked_add_one {x : BitVec 32} (h : x.toNat + 1 < 2 ^ 32) :
    checked_add x 1 = some (x + 1) ∧ (x + 1).toNat = x.toNat + 1 := by
  have hone : (1 : BitVec 32).toNat = 1 := rfl
  unfold checked_add
  rw [BitVec.toNat_add, hone, if_pos h, Nat.mod_eq_of_lt h]
  exact ⟨rfl, rfl⟩

/-- The hosts of a private network are found without an overflow. -/
theorem push_hosts_spec (candidates : List Ipv4Addr) {ip : Ipv4Addr} (h : is_private ip = true)
    (mask : BitVec 32) :
    ∃ found, push_hosts candidates ip mask = some (candidates ++ found) ∧
      ∀ a, a ∈ found ↔ Neighbour ip ⟨mask⟩ a := by
  unfold push_hosts Neighbour
  dsimp only
  have hle : (ip.bits &&& mask).toNat ≤ ip.bits.toNat := by
    rw [BitVec.toNat_and]
    exact Nat.and_le_left
  have hprivate := toNat_of_is_private h
  obtain ⟨hfirst, hnext⟩ := checked_add_one (x := ip.bits &&& mask) (by omega)
  rw [hfirst]
  dsimp only
  generalize ip.bits &&& mask = network at hnext ⊢
  generalize network ||| ~~~mask = broadcast
  split
  · rename_i hempty
    refine ⟨[], by simp, fun a => ?_⟩
    rw [BitVec.le_def] at hempty
    rw [BitVec.lt_def, BitVec.lt_def]
    constructor
    · intro ha
      cases ha
    · rintro ⟨hlow, hhigh, -⟩
      omega
  · refine ⟨_, rfl, fun a => ?_⟩
    rw [List.mem_filter, decide_eq_true_eq, List.mem_map]
    have hmem : (∃ bits ∈ range (network + 1) broadcast, Ipv4Addr.mk bits = a) ↔
        network < a.bits ∧ a.bits < broadcast := by
      rw [BitVec.lt_def, Nat.lt_iff_add_one_le, ← hnext, ← BitVec.le_def, ← mem_range]
      constructor
      · rintro ⟨bits, hbits, rfl⟩
        exact hbits
      · intro ha
        exact ⟨a.bits, ha, rfl⟩
    rw [hmem, and_assoc]

/-- A round for one interface never overflows, and adds the neighbours. -/
theorem push_candidates_spec (candidates : List Ipv4Addr) {iface : IfAddr}
    (h : Contiguous iface) :
    ∃ found, push_candidates candidates iface = some (candidates ++ found) ∧
      ∀ a, a ∈ found ↔ BroughtBy iface a := by
  cases iface with
  | V6 =>
    refine ⟨[], by simp [push_candidates], fun a => ?_⟩
    simp [BroughtBy]
  | V4 ip m =>
    obtain ⟨length, hlength, rfl⟩ := h
    simp only [broughtBy_iff hlength]
    by_cases hskip : (is_loopback ip || !is_private ip) = true
    · refine ⟨[], by simp only [push_candidates, if_pos hskip, List.append_nil], fun a => ?_⟩
      simp [not_brings hskip a]
    · have hprivate : is_private ip = true := by
        revert hskip
        cases is_private ip <;> simp
      obtain ⟨found, hpush, hfound⟩ := push_hosts_spec candidates hprivate
        (effective_mask (netmask length))
      refine ⟨found, by simp only [push_candidates, if_neg hskip, hpush], fun a => ?_⟩
      rw [hfound, effective_mask_netmask hlength, brings_of_private hskip]

/-- The loop, by the interfaces that it has seen. -/
theorem foldlM_push_candidates (candidates : List Ipv4Addr) {interfaces : List IfAddr}
    (h : ∀ iface ∈ interfaces, Contiguous iface) :
    ∃ found, interfaces.foldlM push_candidates candidates = some found ∧
      ∀ a, a ∈ found ↔ a ∈ candidates ∨ ∃ iface ∈ interfaces, BroughtBy iface a := by
  induction interfaces generalizing candidates with
  | nil => exact ⟨candidates, rfl, by simp⟩
  | cons iface interfaces ih =>
    obtain ⟨found, hpush, hfound⟩ := push_candidates_spec candidates (h iface (by simp))
    obtain ⟨all, hall, hmem⟩ := ih (candidates ++ found) fun i hi => h i (by simp [hi])
    refine ⟨all, ?_, fun a => ?_⟩
    · rw [List.foldlM_cons, hpush]
      exact hall
    · rw [hmem, List.mem_append, hfound, or_assoc]
      simp

/-! ## The candidates -/

/-- A network that is looked through has at most `254` hosts. -/
theorem length_neighbours_le {ip : Ipv4Addr} {k : Nat} (hk : k ≤ 8) {l : List Ipv4Addr}
    (hl : l.Nodup) (h : ∀ a ∈ l, Neighbour ip ⟨clearing 32 k⟩ a) : l.length ≤ 254 := by
  have hbits : (l.map fun a => a.bits.toNat).Nodup := by
    apply hl.map
    rintro ⟨a⟩ ⟨b⟩ hab
    exact congrArg Ipv4Addr.mk (BitVec.eq_of_toNat_eq hab)
  have hsub : (l.map fun a => a.bits.toNat).toFinset ⊆
      Finset.Ioo (ip.bits.toNat / 2 ^ k * 2 ^ k) (ip.bits.toNat / 2 ^ k * 2 ^ k + (2 ^ k - 1)) := by
    intro n hn
    rw [List.mem_toFinset, List.mem_map] at hn
    obtain ⟨a, ha, rfl⟩ := hn
    have hneighbour := (neighbour_iff ip a hk).mp (h a ha)
    exact Finset.mem_Ioo.mpr ⟨hneighbour.1, hneighbour.2.1⟩
  have hcard := Finset.card_le_card hsub
  rw [List.toFinset_card_of_nodup hbits, List.length_map, Nat.card_Ioo] at hcard
  have hpow : 2 ^ k ≤ 2 ^ 8 := Nat.pow_le_pow_right (by decide) hk
  omega

theorem Brings.is_private {ip a : Ipv4Addr} {length : Nat} (h : Brings ip length a) :
    is_private a = true := by
  obtain ⟨hprivate, -, hneighbour⟩ := h
  obtain ⟨k, hk, hmask⟩ := clearing_of_length length
  rw [hmask] at hneighbour
  rw [hneighbour.is_private hk, hprivate]

/-- Sorted and without repetition, the addresses found cover the interfaces. -/
theorem covers_of_found {interfaces : List IfAddr} {found : List Ipv4Addr}
    (h : ∀ a, a ∈ found ↔ ∃ iface ∈ interfaces, BroughtBy iface a) :
    Covers interfaces (dedup (found.mergeSort le)) := by
  have hsorted : (dedup (found.mergeSort le)).Pairwise fun a b => le a b = true ∧ a ≠ b := by
    apply destutter_increasing
    · rintro ⟨a⟩ ⟨b⟩ hab hba
      simp only [le, decide_eq_true_eq] at hab hba
      exact congrArg Ipv4Addr.mk (BitVec.le_antisymm hab hba)
    · apply List.pairwise_mergeSort
      · intro a b c hab hbc
        simp only [le, decide_eq_true_eq] at hab hbc ⊢
        exact BitVec.le_trans hab hbc
      · intro a b
        simp only [le, Bool.or_eq_true, decide_eq_true_eq]
        exact BitVec.le_total a.bits b.bits
  have hmem : ∀ a, a ∈ dedup (found.mergeSort le) ↔ ∃ ip length, length ≤ 32 ∧
      .V4 ip (netmask length) ∈ interfaces ∧ Brings ip length a := by
    intro a
    unfold dedup
    rw [mem_destutter_ne, List.mem_mergeSort, h]
    constructor
    · rintro ⟨iface, hiface, ip, length, hlength, rfl, hbrings⟩
      exact ⟨ip, length, hlength, hiface, hbrings⟩
    · rintro ⟨ip, length, hlength, hiface, hbrings⟩
      exact ⟨_, hiface, ip, length, hlength, rfl, hbrings⟩
  refine ⟨hsorted.imp ?_, hmem, ?_, ?_⟩
  · rintro ⟨a⟩ ⟨b⟩ ⟨hab, hne⟩
    simp only [le, decide_eq_true_eq, BitVec.le_def] at hab
    have hbits : a.toNat ≠ b.toNat := fun heq =>
      hne (congrArg Ipv4Addr.mk (BitVec.eq_of_toNat_eq heq))
    rw [BitVec.lt_def]
    exact Nat.lt_of_le_of_ne hab hbits
  · intro a ha
    obtain ⟨ip, length, -, -, hbrings⟩ := (hmem a).mp ha
    exact hbrings.is_private
  · intro ip length _ _
    obtain ⟨k, hk, hmask⟩ := clearing_of_length length
    have hnodup := (hsorted.imp fun h => h.2).filter fun a => Brings ip length a
    have hneighbours : ∀ a ∈ (dedup (found.mergeSort le)).filter fun a => Brings ip length a,
        Neighbour ip ⟨clearing 32 k⟩ a := by
      intro a ha
      have hbrings := of_decide_eq_true (List.mem_filter.mp ha).2
      exact hmask ▸ hbrings.2.2
    exact length_neighbours_le hk hnodup hneighbours

/-- The candidates are found without an overflow, for any interfaces. -/
theorem the_candidates_are_the_neighbours (interfaces : List IfAddr)
    (h : ∀ iface ∈ interfaces, Contiguous iface) :
    ∃ candidates, local_ipv4_candidates (some interfaces) = some candidates ∧
      Covers interfaces candidates := by
  obtain ⟨found, hloop, hfound⟩ := foldlM_push_candidates [] h
  refine ⟨dedup (found.mergeSort le), ?_, ?_⟩
  · unfold local_ipv4_candidates
    dsimp only
    rw [hloop]
  · apply covers_of_found
    intro a
    rw [hfound]
    simp

/-- `192.168.1.5/24`, `192.168.1.9/30`, `10.0.0.1/8`, and a loopback. -/
def homeInterfaces : List IfAddr :=
  [.V4 ⟨0xC0A80105⟩ (netmask 24), .V4 ⟨0xC0A80109⟩ (netmask 30), .V6,
    .V4 ⟨0x0A000001⟩ (netmask 8), .V4 ⟨0x7F000001⟩ (netmask 8)]

theorem the_neighbours_at_home :
    ∃ candidates, local_ipv4_candidates (some homeInterfaces) = some candidates ∧
      Covers homeInterfaces candidates := by
  apply the_candidates_are_the_neighbours
  intro iface hiface
  simp only [homeInterfaces, List.mem_cons, List.not_mem_nil, or_false] at hiface
  rcases hiface with rfl | rfl | rfl | rfl | rfl
  · exact ⟨24, by decide, rfl⟩
  · exact ⟨30, by decide, rfl⟩
  · trivial
  · exact ⟨8, by decide, rfl⟩
  · exact ⟨8, by decide, rfl⟩

end bambu_farm_server.discovery
