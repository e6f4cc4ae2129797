import Mathlib.Data.List.Nodup
import Mathlib.Data.List.Range

/-!
# Ids from a counter (common/common.c:15-16, 54-64)

`generate_unique_id` puts the low half of a counter behind the low half of the process
id. An id that is not positive is replaced by the next value of the counter alone. The
half of the counter comes round after 2^16 calls.
-/

namespace CSimples.UniqueId

/-- One call: the id, and `next_id` afterwards. -/
def generateUniqueId (pid nextId : BitVec 32) : BitVec 32 × BitVec 32 :=
  let id := (pid <<< 16) ||| (nextId &&& 65535#32)
  if id.toInt ≤ 0 then (nextId + 1#32, nextId + 1#32 + 1#32) else (id, nextId + 1#32)

def ids (pid : BitVec 32) : ℕ → BitVec 32 → List (BitVec 32)
  | 0, _ => []
  | n + 1, nextId => (generateUniqueId pid nextId).1 :: ids pid n (generateUniqueId pid nextId).2

def nextAfter (pid : BitVec 32) : ℕ → BitVec 32 → BitVec 32
  | 0, nextId => nextId
  | n + 1, nextId => nextAfter pid n (generateUniqueId pid nextId).2

def firstIds (pid : BitVec 32) (n : ℕ) : List (BitVec 32) := ids pid n 1#32

def Unique (pid : BitVec 32) (n : ℕ) : Prop :=
  (∀ id ∈ firstIds pid n, 0 < id.toInt) ∧ (firstIds pid n).Nodup

/-! ### One call -/

variable {pid : BitVec 32} {m n : ℕ}

theorem toInt_pos_iff (x : BitVec 32) : 0 < x.toInt ↔ 0 < x.toNat ∧ x.toNat < 2147483648 := by
  have hlt := x.isLt
  rw [BitVec.toInt_eq_toNat_cond]
  split <;> omega

theorem id_toNat (pid nextId : BitVec 32) :
    ((pid <<< 16) ||| (nextId &&& 65535#32)).toNat =
      pid.toNat % 65536 * 65536 + nextId.toNat % 65536 := by
  have hlow : (nextId &&& 65535#32).toNat = nextId.toNat % 65536 := by
    rw [BitVec.toNat_and]
    exact Nat.and_two_pow_sub_one_eq_mod nextId.toNat 16
  have hhigh : (pid <<< 16).toNat = (pid.toNat % 65536) <<< 16 := by
    rw [BitVec.toNat_shiftLeft, Nat.shiftLeft_eq, Nat.shiftLeft_eq]
    omega
  have hlt : nextId.toNat % 65536 < 2^16 := Nat.mod_lt _ (by decide)
  rw [BitVec.toNat_or, hlow, hhigh, ← Nat.shiftLeft_add_eq_or_of_lt hlt, Nat.shiftLeft_eq]

/-- With the sign bit set, or both halves zero, only the counter is used, for two of
its values. -/
theorem generate_replaced
    (h : 32768 ≤ pid.toNat % 65536 ∨ pid.toNat % 65536 = 0 ∧ m % 65536 = 0) :
    generateUniqueId pid (BitVec.ofNat 32 m) =
      (BitVec.ofNat 32 (m + 1), BitVec.ofNat 32 (m + 2)) := by
  have hid := id_toNat pid (BitVec.ofNat 32 m)
  have hlow : (BitVec.ofNat 32 m).toNat % 65536 = m % 65536 := by
    rw [BitVec.toNat_ofNat]
    omega
  have hneg : ((pid <<< 16) ||| (BitVec.ofNat 32 m &&& 65535#32)).toInt ≤ 0 := by
    by_contra hpos
    have hlt := (toInt_pos_iff _).mp (Int.lt_of_not_ge hpos)
    omega
  have htwo : BitVec.ofNat 32 (m + 2) = BitVec.ofNat 32 m + 1#32 + 1#32 := by
    rw [← BitVec.ofNat_add, ← BitVec.ofNat_add]
  rw [generateUniqueId, if_pos hneg, BitVec.ofNat_add m 1, htwo]

theorem generate_positive (hpid : pid.toNat % 65536 < 32768)
    (hm : 0 < pid.toNat % 65536 ∨ 0 < m % 65536) :
    generateUniqueId pid (BitVec.ofNat 32 m) =
      (BitVec.ofNat 32 (pid.toNat % 65536 * 65536 + m % 65536), BitVec.ofNat 32 (m + 1)) := by
  have hid := id_toNat pid (BitVec.ofNat 32 m)
  have hlow : (BitVec.ofNat 32 m).toNat % 65536 = m % 65536 := by
    rw [BitVec.toNat_ofNat]
    omega
  rw [hlow] at hid
  have hpos : ¬ ((pid <<< 16) ||| (BitVec.ofNat 32 m &&& 65535#32)).toInt ≤ 0 := by
    have hpos := (toInt_pos_iff ((pid <<< 16) ||| (BitVec.ofNat 32 m &&& 65535#32))).mpr (by omega)
    omega
  rw [generateUniqueId, if_neg hpos, ← hid, BitVec.ofNat_toNat, BitVec.setWidth_eq, BitVec.ofNat_add]

/-! ### A run of calls -/

theorem ids_add (pid : BitVec 32) (a b : ℕ) (nextId : BitVec 32) :
    ids pid (a + b) nextId = ids pid a nextId ++ ids pid b (nextAfter pid a nextId) := by
  induction a generalizing nextId with
  | zero => rw [Nat.zero_add]; rfl
  | succ a ih => rw [Nat.succ_add, ids, ids, nextAfter, ih, List.cons_append]

theorem Unique.fewer (h : Unique pid n) (hle : m ≤ n) : Unique pid m := by
  obtain ⟨b, rfl⟩ := Nat.exists_eq_add_of_le hle
  rw [Unique, firstIds, ids_add] at h
  exact ⟨fun id hid => h.1 id (List.mem_append_left _ hid), (List.nodup_append.mp h.2).1⟩

theorem ids_negative (hpid : 32768 ≤ pid.toNat % 65536) (n m : ℕ) :
    ids pid n (BitVec.ofNat 32 m) =
      (List.range n).map fun k => BitVec.ofNat 32 (m + 1 + 2 * k) := by
  induction n generalizing m with
  | zero => rfl
  | succ n ih =>
    rw [ids, generate_replaced (Or.inl hpid), ih, List.range_succ_eq_map, List.map_cons, List.map_map]
    congr 1
    apply List.map_congr_left
    intro k _
    simp only [Function.comp_apply]
    congr 1
    omega

theorem ids_positive (hpid : pid.toNat % 65536 < 32768) (n m : ℕ)
    (hm : ∀ k < n, 0 < pid.toNat % 65536 ∨ 0 < (m + k) % 65536) :
    ids pid n (BitVec.ofNat 32 m) = ((List.range n).map fun k =>
      BitVec.ofNat 32 (pid.toNat % 65536 * 65536 + (m + k) % 65536)) ∧
    nextAfter pid n (BitVec.ofNat 32 m) = BitVec.ofNat 32 (m + n) := by
  induction n generalizing m with
  | zero => exact ⟨rfl, rfl⟩
  | succ n ih =>
    have hrest : ∀ k < n, 0 < pid.toNat % 65536 ∨ 0 < (m + 1 + k) % 65536 := by
      intro k hk
      have hnext := hm (k + 1) (by omega)
      rwa [show m + (k + 1) = m + 1 + k by omega] at hnext
    obtain ⟨hids, hafter⟩ := ih (m + 1) hrest
    have hfirst := generate_positive hpid (hm 0 (by omega))
    rw [Nat.add_zero] at hfirst
    constructor
    · rw [ids, hfirst, hids, List.range_succ_eq_map, List.map_cons, List.map_map, Nat.add_zero]
      congr 1
      apply List.map_congr_left
      intro k _
      simp only [Function.comp_apply]
      congr 3
      omega
    · rw [nextAfter, hfirst, hafter]
      congr 1
      omega

/-! ### How long the ids are unique -/

theorem ofNat_inj {a b : ℕ} (ha : a < 4294967296) (hb : b < 4294967296)
    (h : BitVec.ofNat 32 a = BitVec.ofNat 32 b) : a = b := by
  have hnat := congrArg BitVec.toNat h
  rwa [BitVec.toNat_ofNat, BitVec.toNat_ofNat, Nat.mod_eq_of_lt ha, Nat.mod_eq_of_lt hb] at hnat

theorem ofNat_pos_iff {a : ℕ} (ha : a < 4294967296) :
    0 < (BitVec.ofNat 32 a).toInt ↔ 0 < a ∧ a < 2147483648 := by
  rw [toInt_pos_iff, BitVec.toNat_ofNat, Nat.mod_eq_of_lt ha]

theorem map_unique {f : ℕ → ℕ} (hpos : ∀ k < n, 0 < f k ∧ f k < 2147483648)
    (hinj : ∀ j < n, ∀ k < n, f j = f k → j = k) :
    (∀ id ∈ (List.range n).map fun k => BitVec.ofNat 32 (f k), 0 < id.toInt) ∧
      ((List.range n).map fun k => BitVec.ofNat 32 (f k)).Nodup := by
  constructor
  · intro id hid
    obtain ⟨k, hk, rfl⟩ := List.mem_map.mp hid
    have hf := hpos k (List.mem_range.mp hk)
    exact (ofNat_pos_iff (by omega)).mpr hf
  · refine (List.nodup_map_iff_inj_on List.nodup_range).mpr fun j hj k hk he => ?_
    have hfj := hpos j (List.mem_range.mp hj)
    have hfk := hpos k (List.mem_range.mp hk)
    exact hinj j (List.mem_range.mp hj) k (List.mem_range.mp hk)
      (ofNat_inj (by omega) (by omega) he)

theorem unique_negative (hpid : 32768 ≤ pid.toNat % 65536) (n : ℕ) :
    Unique pid n ↔ n < 1073741824 := by
  have hids : firstIds pid n = _ := ids_negative hpid n 1
  constructor
  · intro h
    by_contra hge
    have hlast := (h.fewer (by omega : 1073741824 ≤ n)).1 (BitVec.ofNat 32 2147483648) (by
      rw [firstIds, ids_negative hpid]
      exact List.mem_map.mpr ⟨1073741823, List.mem_range.mpr (by omega), rfl⟩)
    rw [ofNat_pos_iff (by omega)] at hlast
    omega
  · intro hn
    rw [Unique, hids]
    exact map_unique (fun k hk => by omega) fun j hj k hk he => by omega

theorem firstIds_positive (hpid : pid.toNat % 65536 < 32768) (hzero : 0 < pid.toNat % 65536)
    (n : ℕ) : firstIds pid n = (List.range n).map fun k =>
      BitVec.ofNat 32 (pid.toNat % 65536 * 65536 + (1 + k) % 65536) :=
  (ids_positive hpid n 1 fun _ _ => Or.inl hzero).1

/-- Without the process id the counter alone counts, until its low half is zero. -/
theorem firstIds_zero (hpid : pid.toNat % 65536 = 0) (hn : n ≤ 65535) (b : ℕ) :
    firstIds pid (n + b) = ((List.range n).map fun k => BitVec.ofNat 32 (1 + k)) ++
      ids pid b (BitVec.ofNat 32 (1 + n)) := by
  obtain ⟨hids, hafter⟩ := ids_positive (by omega : pid.toNat % 65536 < 32768) n 1
    fun k hk => Or.inr (by omega)
  have hfirst : ids pid n 1#32 = (List.range n).map fun k => BitVec.ofNat 32 (1 + k) := by
    refine hids.trans (List.map_congr_left fun k hk => ?_)
    have hk := List.mem_range.mp hk
    have hcount : pid.toNat % 65536 * 65536 + (1 + k) % 65536 = 1 + k := by omega
    rw [hcount]
  rw [firstIds, ids_add, hfirst, hafter]

/-- The second id comes again with the 65537th call. -/
theorem firstIds_zero_repeated (hpid : pid.toNat % 65536 = 0) :
    firstIds pid 65536 = ((List.range 65535).map fun k => BitVec.ofNat 32 (1 + k)) ++
        [BitVec.ofNat 32 65537] ∧
      firstIds pid 65537 = firstIds pid 65536 ++ [BitVec.ofNat 32 2] := by
  have hlast : generateUniqueId pid (BitVec.ofNat 32 65536) =
      (BitVec.ofNat 32 65537, BitVec.ofNat 32 65538) :=
    generate_replaced (Or.inr ⟨hpid, by omega⟩)
  have hagain := generate_positive (m := 65538) (by omega : pid.toNat % 65536 < 32768)
    (Or.inr (by omega))
  have hsecond : pid.toNat % 65536 * 65536 + 65538 % 65536 = 2 := by omega
  rw [hsecond] at hagain
  have hone : ids pid 1 (BitVec.ofNat 32 65536) = [BitVec.ofNat 32 65537] := by
    rw [ids, hlast, ids]
  have htwo : ids pid 2 (BitVec.ofNat 32 65536) =
      [BitVec.ofNat 32 65537] ++ [BitVec.ofNat 32 2] := by
    rw [ids, hlast, ids, hagain, ids, List.singleton_append]
  have h1 := firstIds_zero hpid (Nat.le_refl 65535) 1
  have h2 := firstIds_zero hpid (Nat.le_refl 65535) 2
  rw [hone] at h1
  rw [htwo, ← List.append_assoc, ← h1] at h2
  exact ⟨h1, h2⟩

theorem unique_positive (hpid : pid.toNat % 65536 < 32768) (n : ℕ) :
    Unique pid n ↔ n ≤ 65536 := by
  have hrun : Unique pid 65536 ∧ ¬ Unique pid 65537 := by
    rcases Nat.eq_zero_or_pos (pid.toNat % 65536) with hzero | hpos
    · obtain ⟨h1, h2⟩ := firstIds_zero_repeated hzero
      obtain ⟨hids, hnodup⟩ := map_unique (n := 65535) (f := fun k => 1 + k)
        (fun k hk => by omega) fun j hj k hk he => by omega
      refine ⟨?_, fun h => ?_⟩
      · rw [Unique, h1]
        refine ⟨fun id hid => ?_, ?_⟩
        · rcases List.mem_append.mp hid with hid | hid
          · exact hids id hid
          · rw [List.mem_singleton.mp hid, ofNat_pos_iff (by omega)]
            omega
        · refine List.nodup_append.mpr ⟨hnodup, List.nodup_singleton _, fun a ha b hb he => ?_⟩
          obtain ⟨k, hk, rfl⟩ := List.mem_map.mp ha
          have hk := List.mem_range.mp hk
          rw [List.mem_singleton.mp hb] at he
          have heq := ofNat_inj (by omega) (by omega) he
          omega
      · have hnodup := h.2
        rw [h2, h1] at hnodup
        refine (List.nodup_append.mp hnodup).2.2 (BitVec.ofNat 32 2) ?_ _
          (List.mem_singleton_self _) rfl
        exact List.mem_append_left _ (List.mem_map.mpr ⟨1, List.mem_range.mpr (by omega), rfl⟩)
    · refine ⟨?_, fun h => ?_⟩
      · rw [Unique, firstIds_positive hpid hpos]
        exact map_unique (fun k hk => by omega) fun j hj k hk he => by omega
      · have hnodup := h.2
        rw [firstIds_positive hpid hpos] at hnodup
        have heq := List.inj_on_of_nodup_map hnodup (List.mem_range.mpr (by omega : 0 < 65537))
          (List.mem_range.mpr (by omega : 65536 < 65537)) rfl
        omega
  constructor
  · intro h
    by_contra hgt
    exact hrun.2 (h.fewer (by omega))
  · exact fun hle => hrun.1.fewer hle

/-- The ids of a process are positive and different up to the 2^16-th, or when the shifted
process id is negative, up to the last even number below 2^31. -/
theorem generateUniqueId_unique_iff (pid : BitVec 32) (n : ℕ) :
    Unique pid n ↔
      if pid.toNat % 65536 < 32768 then n ≤ 65536 else n < 1073741824 := by
  split
  · rename_i hpid
    exact unique_positive hpid n
  · rename_i hpid
    exact unique_negative (by omega) n

/-- Process 1 gets its first id again with the 65537th call. -/
theorem generateUniqueId_repeats : ¬ Unique 1#32 65537 := by
  intro h
  have hle := (unique_positive (by decide) 65537).mp h
  omega

end CSimples.UniqueId
