import CSimples.ClientServer.IpStats
import CSimples.Lib.Keyed
import Mathlib.Data.List.Induction
import Mathlib.Algebra.Order.Ring.Int

/-!
# What the IP statistics account for (c-client-server-app/src/server.c)

Calls of `update_ip_stats` with a re-entrant mutex, so that all of them return. An
entry of the list accounts for the calls for its address from the one that created
it on. A clean-up inside a call may remove entries, which later calls create anew.
-/

namespace CSimples.ClientServer
open CString Keyed

structure Update where
  ip : List UInt8
  bytes : UInt64
  now : ℤ
  cleanupNow : ℤ

def Update.call (u : Update) : Call := .update u.ip u.bytes u.now u.cleanupNow

/-- The address as the string it is compared as. -/
def Update.addr (u : Update) : List UInt8 := cstr u.ip

def cleanupDue (st : Stats) (u : Update) : Bool := decide (3600 < u.now - st.lastCleanup)

def isFresh (u : Update) (e : IpStat) : Bool := decide (u.cleanupNow - e.lastSeen ≤ 2592000)

def updateStats (st : Stats) (u : Update) : Stats :=
  let entries := updateEntry u.ip u.bytes u.now st.ipStatsList
  { st with
    ipStatsList := if cleanupDue st u then entries.filter (isFresh u) else entries
    lastStatsSave := if 300 < u.now - st.lastStatsSave then u.now else st.lastStatsSave
    lastCleanup := if cleanupDue st u then u.now else st.lastCleanup }

def statsAfter (us : List Update) : Stats := us.foldl updateStats startStats

theorem step_update (st : Stats) (u : Update) :
    step true (some st) u.call = some (updateStats st u) := by
  simp only [step, Update.call, call, Option.bind_some, updateIpStats, periodicSave, saveIpStats,
    periodicCleanup, cleanupOldEntries, lock, unlock, or_true, if_true, Option.map_some,
    updateStats, cleanupDue]
  have hfresh : isFresh u = fun e => decide (u.cleanupNow - e.lastSeen ≤ 2592000) := rfl
  rw [hfresh]
  by_cases hsave : 300 < u.now - st.lastStatsSave
  · by_cases hclean : 3600 < u.now - st.lastCleanup <;> simp [hsave, hclean]
  · by_cases hclean : 3600 < u.now - st.lastCleanup <;> simp [hsave, hclean]

theorem calls_return (us : List Update) :
    (us.map Update.call).foldl (step true) (some startStats) = some (statsAfter us) := by
  have hrun : ∀ (us : List Update) st,
      (us.map Update.call).foldl (step true) (some st) = some (us.foldl updateStats st) := by
    intro us
    induction us with
    | nil => exact fun _ => rfl
    | cons u us ih =>
      intro st
      rw [List.map_cons, List.foldl_cons, List.foldl_cons, step_update]
      exact ih _
  exact hrun us startStats

theorem statsAfter_append (us : List Update) (u : Update) :
    statsAfter (us ++ [u]) = updateStats (statsAfter us) u := by
  rw [statsAfter, List.foldl_append]
  rfl

/-! ### What an entry accounts for -/

/-- The calls for the address from call number `p` on. -/
def callsSince (us : List Update) (p : ℕ) (ip : List UInt8) : List Update :=
  (us.drop p).filter fun u => decide (u.addr = ip)

def totalBytes (us : List Update) : ℕ := (us.map fun u => u.bytes.toNat).sum

/-- Call number `p` found no entry for the address and created `e`, which was there
ever since and accounts for the calls from then on. -/
structure Account (us : List Update) (p : ℕ) (e : IpStat) : Prop where
  created : ∃ u, us[p]? = some u ∧ u.addr = e.ip ∧ e.firstSeen = u.now
  absent : ∀ x ∈ (statsAfter (us.take p)).ipStatsList, x.ip ≠ e.ip
  present : ∀ k, p < k → k ≤ us.length → ∃ x ∈ (statsAfter (us.take k)).ipStatsList, x.ip = e.ip
  total : e.totalBytes.toNat = totalBytes (callsSince us p e.ip) % 2 ^ 64
  last : ((callsSince us p e.ip).getLast?).map Update.now = some e.lastSeen

/-- Each entry with the number of the call that created it. -/
def Accounted (us : List Update) (accounts : List (ℕ × IpStat)) : Prop :=
  accounts.map Prod.snd = (statsAfter us).ipStatsList ∧ (accounts.map Prod.fst).Pairwise (· < ·) ∧
    ∀ a ∈ accounts, Account us a.1 a.2

/-- What has no entry after the call was removed by its clean-up, more than 30 days after its
last update. -/
structure OnlyStale (st : Stats) (u : Update) : Prop where
  others : ∀ e ∈ st.ipStatsList, e.ip ≠ u.addr →
    (∀ x ∈ (updateStats st u).ipStatsList, x.ip ≠ e.ip) →
      cleanupDue st u = true ∧ 2592000 < u.cleanupNow - e.lastSeen
  updated : (∀ x ∈ (updateStats st u).ipStatsList, x.ip ≠ u.addr) →
    cleanupDue st u = true ∧ 2592000 < u.cleanupNow - u.now

/-! ### One call -/

def touch (u : Update) (e : IpStat) : IpStat :=
  if e.ip = u.addr then countBytes u.bytes u.now e else e

def created (u : Update) : IpStat := countBytes u.bytes u.now (newEntry u.ip u.now)

theorem countBytes_ip (bytes : UInt64) (now : ℤ) (e : IpStat) : (countBytes bytes now e).ip = e.ip := by
  unfold countBytes
  split <;> rfl

theorem countBytes_firstSeen (bytes : UInt64) (now : ℤ) (e : IpStat) :
    (countBytes bytes now e).firstSeen = e.firstSeen := by
  unfold countBytes
  split <;> rfl

theorem countBytes_lastSeen (bytes : UInt64) (now : ℤ) (e : IpStat) :
    (countBytes bytes now e).lastSeen = now := by
  unfold countBytes
  split <;> rfl

theorem countBytes_totalBytes (bytes : UInt64) (now : ℤ) (e : IpStat) :
    (countBytes bytes now e).totalBytes = e.totalBytes + bytes := by
  unfold countBytes
  split <;> rfl

theorem touch_ip (u : Update) (e : IpStat) : (touch u e).ip = e.ip := by
  unfold touch
  split
  · exact countBytes_ip _ _ _
  · rfl

theorem created_ip {u : Update} (hlen : u.addr.length ≤ 45) : (created u).ip = u.addr := by
  rw [created, countBytes_ip]
  exact List.take_of_length_le hlen

/-- With one entry per address, the loop updates the entry of the address wherever it is, and
otherwise appends one. -/
theorem updateEntry_eq (u : Update) {entries : List IpStat} (hd : Distinct IpStat.ip entries) :
    updateEntry u.ip u.bytes u.now entries = entries.map (touch u) ++
      if ∀ e ∈ entries, e.ip ≠ u.addr then [created u] else [] := by
  induction entries with
  | nil => simp [updateEntry, created]
  | cons e entries ih =>
    obtain ⟨hfresh, hrest⟩ := List.nodup_cons.mp hd
    have hstep : updateEntry u.ip u.bytes u.now (e :: entries) = if e.ip = u.addr then
        countBytes u.bytes u.now e :: entries else e :: updateEntry u.ip u.bytes u.now entries := rfl
    rw [hstep, List.map_cons]
    by_cases he : e.ip = u.addr
    · -- no later entry has the address
      have hlater : entries.map (touch u) = entries := by
        refine (List.map_congr_left fun x hx => ?_).trans (List.map_id _)
        have hne : x.ip ≠ u.addr := fun hxe =>
          hfresh (List.mem_map.mpr ⟨x, hx, hxe.trans he.symm⟩)
        exact if_neg hne
      have hfound : ¬ ∀ x ∈ e :: entries, x.ip ≠ u.addr := fun h => h e (List.mem_cons_self ..) he
      rw [if_pos he, hlater, if_neg hfound, List.append_nil, touch, if_pos he]
    · have hcond : (∀ x ∈ e :: entries, x.ip ≠ u.addr) ↔ ∀ x ∈ entries, x.ip ≠ u.addr := by
        rw [List.forall_mem_cons]
        exact ⟨And.right, fun h => ⟨he, h⟩⟩
      rw [if_neg he, ih hrest, touch, if_neg he, List.cons_append]
      simp only [hcond]

theorem updateStats_entries (st : Stats) (u : Update) :
    (updateStats st u).ipStatsList = (updateEntry u.ip u.bytes u.now st.ipStatsList).filter
      fun e => !cleanupDue st u || isFresh u e := by
  unfold updateStats
  cases cleanupDue st u <;> simp

/-! ### Accounts over a run -/

theorem callsSince_append {us : List Update} {p : ℕ} (hp : p ≤ us.length) (u : Update)
    (ip : List UInt8) :
    callsSince (us ++ [u]) p ip = callsSince us p ip ++ if u.addr = ip then [u] else [] := by
  rw [callsSince, List.drop_append_of_le_length hp, List.filter_append, List.filter_singleton]
  simp [callsSince]

theorem totalBytes_append (us : List Update) (u : Update) :
    totalBytes (us ++ [u]) = totalBytes us + u.bytes.toNat := by
  simp [totalBytes]

theorem Account.lt {us : List Update} {p : ℕ} {e : IpStat} (h : Account us p e) :
    p < us.length := by
  obtain ⟨_, hu, _⟩ := h.created
  exact (List.getElem?_eq_some_iff.mp hu).1

theorem Account.next {us : List Update} {p : ℕ} {e : IpStat} (h : Account us p e) (u : Update)
    (hstay : ∃ x ∈ (statsAfter (us ++ [u])).ipStatsList, x.ip = e.ip) :
    Account (us ++ [u]) p (touch u e) := by
  have hp := h.lt
  have hcalls := callsSince_append (Nat.le_of_lt hp) u e.ip
  constructor
  · obtain ⟨v, hv, hip, hfirst⟩ := h.created
    refine ⟨v, ?_, ?_, ?_⟩
    · rw [List.getElem?_append_left hp, hv]
    · rw [touch_ip, hip]
    · rw [← hfirst, touch]
      split
      · exact countBytes_firstSeen _ _ _
      · rfl
  · rw [List.take_append_of_le_length (Nat.le_of_lt hp), touch_ip]
    exact h.absent
  · intro k hpk hk
    rw [touch_ip]
    by_cases hle : k ≤ us.length
    · rw [List.take_append_of_le_length hle]
      exact h.present k hpk hle
    · rw [List.take_of_length_le (by simp; omega)]
      exact hstay
  · rw [touch_ip, hcalls, touch]
    by_cases hip : e.ip = u.addr
    · rw [if_pos hip, if_pos hip.symm, totalBytes_append, countBytes_totalBytes, UInt64.toNat_add,
        h.total, Nat.mod_add_mod]
    · rw [if_neg hip, if_neg (Ne.symm hip), List.append_nil, h.total]
  · rw [touch_ip, hcalls, touch]
    by_cases hip : e.ip = u.addr
    · rw [if_pos hip, if_pos hip.symm, List.getLast?_append, countBytes_lastSeen]
      rfl
    · rw [if_neg hip, if_neg (Ne.symm hip), List.append_nil, h.last]

theorem account_created {us : List Update} {u : Update} (hlen : u.addr.length ≤ 45)
    (habsent : ∀ e ∈ (statsAfter us).ipStatsList, e.ip ≠ u.addr)
    (hstay : ∃ x ∈ (statsAfter (us ++ [u])).ipStatsList, x.ip = u.addr) :
    Account (us ++ [u]) us.length (created u) := by
  have hip := created_ip hlen
  have hcalls : callsSince (us ++ [u]) us.length u.addr = [u] := by
    rw [callsSince_append (Nat.le_refl _), callsSince, List.drop_length, if_pos rfl]
    rfl
  constructor
  · refine ⟨u, by simp, hip.symm, ?_⟩
    rw [created, countBytes_firstSeen]
    rfl
  · rw [List.take_left, hip]
    exact habsent
  · intro k hk hle
    rw [hip, List.take_of_length_le (by simp; omega)]
    exact hstay
  · have hbytes := u.bytes.toNat_lt
    rw [hip, hcalls, created, countBytes_totalBytes]
    simp [newEntry, totalBytes, Nat.mod_eq_of_lt hbytes]
  · rw [hip, hcalls, created, countBytes_lastSeen]
    rfl

theorem distinct_next {us : List Update} (hd : Distinct IpStat.ip (statsAfter us).ipStatsList)
    {u : Update} (hlen : u.addr.length ≤ 45) :
    Distinct IpStat.ip (statsAfter (us ++ [u])).ipStatsList := by
  rw [statsAfter_append, updateStats_entries]
  have hall : Distinct IpStat.ip
      (updateEntry u.ip u.bytes u.now (statsAfter us).ipStatsList) := by
    have hips : ((statsAfter us).ipStatsList.map (touch u)).map IpStat.ip =
        (statsAfter us).ipStatsList.map IpStat.ip := by
      rw [List.map_map]
      exact List.map_congr_left fun e _ => touch_ip u e
    rw [updateEntry_eq u hd]
    split
    · rename_i habsent
      refine distinct_append_fresh.mpr ⟨?_, fun e he => ?_⟩
      · rw [Distinct, hips]
        exact hd
      · obtain ⟨x, hx, rfl⟩ := List.mem_map.mp he
        rw [touch_ip, created_ip hlen]
        exact habsent x hx
    · rw [List.append_nil, Distinct, hips]
      exact hd
  exact hall.sublist (List.filter_sublist.map IpStat.ip)

/-- The accounts after the loop of the call, before its clean-up. -/
def countCall (us : List Update) (accounts : List (ℕ × IpStat)) (u : Update) :
    List (ℕ × IpStat) :=
  accounts.map (fun a => (a.1, touch u a.2)) ++
    if ∀ e ∈ (statsAfter us).ipStatsList, e.ip ≠ u.addr then [(us.length, created u)] else []

theorem countCall_entries {us : List Update} {accounts : List (ℕ × IpStat)}
    (hd : Distinct IpStat.ip (statsAfter us).ipStatsList)
    (hentries : accounts.map Prod.snd = (statsAfter us).ipStatsList) (u : Update) :
    (countCall us accounts u).map Prod.snd =
      updateEntry u.ip u.bytes u.now (statsAfter us).ipStatsList := by
  have hold : (accounts.map fun a => (a.1, touch u a.2)).map Prod.snd =
      (statsAfter us).ipStatsList.map (touch u) := by
    rw [← hentries, List.map_map, List.map_map]
    rfl
  rw [updateEntry_eq u hd, countCall, List.map_append, hold]
  split_ifs <;> rfl

theorem countCall_numbers {us : List Update} {accounts : List (ℕ × IpStat)}
    (hsorted : (accounts.map Prod.fst).Pairwise (· < ·))
    (haccount : ∀ a ∈ accounts, Account us a.1 a.2) (u : Update) :
    ((countCall us accounts u).map Prod.fst).Pairwise (· < ·) := by
  have hold : (accounts.map fun a => (a.1, touch u a.2)).map Prod.fst =
      accounts.map Prod.fst := by
    rw [List.map_map]
    rfl
  rw [countCall, List.map_append, hold]
  refine List.pairwise_append.mpr ⟨hsorted, ?_, ?_⟩
  · split_ifs <;> simp
  · intro p hp q hq
    obtain ⟨a, ha, rfl⟩ := List.mem_map.mp hp
    have hlt := (haccount a ha).lt
    split_ifs at hq
    · simp only [List.map_cons, List.map_nil, List.mem_singleton] at hq
      omega
    · simp at hq

theorem countCall_account {us : List Update} {accounts : List (ℕ × IpStat)}
    (haccount : ∀ a ∈ accounts, Account us a.1 a.2) {u : Update} (hlen : u.addr.length ≤ 45)
    {a : ℕ × IpStat} (ha : a ∈ countCall us accounts u)
    (hstays : a.2 ∈ (statsAfter (us ++ [u])).ipStatsList) : Account (us ++ [u]) a.1 a.2 := by
  rcases List.mem_append.mp ha with ha | ha
  · obtain ⟨b, hb, rfl⟩ := List.mem_map.mp ha
    exact (haccount b hb).next u ⟨_, hstays, touch_ip u b.2⟩
  · split_ifs at ha with habsent
    · obtain rfl := List.mem_singleton.mp ha
      exact account_created hlen habsent ⟨_, hstays, created_ip hlen⟩
    · exact absurd ha List.not_mem_nil

theorem accounted_next {us : List Update} {accounts : List (ℕ × IpStat)}
    (hd : Distinct IpStat.ip (statsAfter us).ipStatsList) (h : Accounted us accounts) {u : Update}
    (hlen : u.addr.length ≤ 45) : ∃ accounts', Accounted (us ++ [u]) accounts' := by
  obtain ⟨hentries, hsorted, haccount⟩ := h
  have hafter : (statsAfter (us ++ [u])).ipStatsList =
      ((countCall us accounts u).map Prod.snd).filter
        fun e => !cleanupDue (statsAfter us) u || isFresh u e := by
    rw [statsAfter_append, updateStats_entries, countCall_entries hd hentries]
  refine ⟨(countCall us accounts u).filter
    fun a => !cleanupDue (statsAfter us) u || isFresh u a.2, ?_, ?_, ?_⟩
  · rw [hafter, List.filter_map]
    rfl
  · exact (countCall_numbers hsorted haccount u).sublist (List.filter_sublist.map Prod.fst)
  · intro a ha
    obtain ⟨ha, hfresh⟩ := List.mem_filter.mp ha
    refine countCall_account haccount hlen ha ?_
    rw [hafter]
    exact List.mem_filter.mpr ⟨List.mem_map_of_mem ha, hfresh⟩

theorem accounted {us : List Update} (hlen : ∀ u ∈ us, u.addr.length ≤ 45) :
    Distinct IpStat.ip (statsAfter us).ipStatsList ∧ ∃ accounts, Accounted us accounts := by
  induction us using List.reverseRecOn with
  | nil => exact ⟨List.nodup_nil, [], rfl, List.Pairwise.nil, fun a ha => absurd ha List.not_mem_nil⟩
  | append_singleton us u ih =>
    obtain ⟨hd, accounts, haccounts⟩ := ih fun v hv => hlen v (List.mem_append_left _ hv)
    have hu : u.addr.length ≤ 45 := hlen u (by simp)
    exact ⟨distinct_next hd hu, accounted_next hd haccounts hu⟩

theorem onlyStale {us : List Update} (hd : Distinct IpStat.ip (statsAfter us).ipStatsList)
    {u : Update} (hlen : u.addr.length ≤ 45) : OnlyStale (statsAfter us) u := by
  -- what is in the list before the clean-up and not after it was not fresh
  have hgone : ∀ e ∈ updateEntry u.ip u.bytes u.now (statsAfter us).ipStatsList,
      (∀ x ∈ (updateStats (statsAfter us) u).ipStatsList, x.ip ≠ e.ip) →
        cleanupDue (statsAfter us) u = true ∧ 2592000 < u.cleanupNow - e.lastSeen := by
    intro e he hgone
    have hnot : e ∉ (updateStats (statsAfter us) u).ipStatsList := fun h => hgone e h rfl
    rw [updateStats_entries, List.mem_filter] at hnot
    have hstale := Bool.eq_false_iff.mpr fun hstays => hnot ⟨he, hstays⟩
    obtain ⟨hdue, hfresh⟩ := Bool.or_eq_false_iff.mp hstale
    have hlate : ¬ u.cleanupNow - e.lastSeen ≤ 2592000 := of_decide_eq_false hfresh
    exact ⟨Bool.not_eq_eq_eq_not.mp hdue, Int.not_le.mp hlate⟩
  have hmem := updateEntry_eq u hd
  constructor
  · intro e he hne habsent
    refine hgone e ?_ habsent
    rw [hmem]
    exact List.mem_append_left _ (List.mem_map.mpr ⟨e, he, if_neg hne⟩)
  · intro habsent
    by_cases hold : ∀ e ∈ (statsAfter us).ipStatsList, e.ip ≠ u.addr
    · have hnew : created u ∈ updateEntry u.ip u.bytes u.now (statsAfter us).ipStatsList := by
        rw [hmem, if_pos hold]
        simp
      have hlate := hgone _ hnew (by rwa [created_ip hlen])
      rwa [created, countBytes_lastSeen] at hlate
    · obtain ⟨e, he, hip⟩ : ∃ e ∈ (statsAfter us).ipStatsList, e.ip = u.addr := by
        simpa using hold
      have hnew : countBytes u.bytes u.now e ∈
          updateEntry u.ip u.bytes u.now (statsAfter us).ipStatsList := by
        rw [hmem]
        exact List.mem_append_left _ (List.mem_map.mpr ⟨e, he, if_pos hip⟩)
      have hlate := hgone _ hnew (by rwa [countBytes_ip, hip])
      rwa [countBytes_lastSeen] at hlate

/-- Whatever the clock readings: after any calls the list has one entry per address, each
entry accounts for the calls for its address since its creation, the entries are in order of
creation, and a call removes only what no call has updated for more than 30 days. -/
theorem traffic_accounted (us : List Update) (hlen : ∀ u ∈ us, u.addr.length ≤ 45) :
    (us.map Update.call).foldl (step true) (some startStats) = some (statsAfter us) ∧
      Distinct IpStat.ip (statsAfter us).ipStatsList ∧ (∃ accounts, Accounted us accounts) ∧
        ∀ before u after, us = before ++ u :: after → OnlyStale (statsAfter before) u := by
  obtain ⟨hd, haccounts⟩ := accounted hlen
  refine ⟨calls_return us, hd, haccounts, fun before u after hus => ?_⟩
  have hbefore : ∀ v ∈ before, v.addr.length ≤ 45 := fun v hv => hlen v (by simp [hus, hv])
  exact onlyStale (accounted hbefore).1 (hlen u (by simp [hus]))

def twoAddresses : List Update :=
  [⟨text "10.0.0.1", 0, 100, 100⟩, ⟨text "10.0.0.2", 5, 101, 101⟩, ⟨text "10.0.0.1", 7, 102, 102⟩]

theorem traffic_accounted_twoAddresses :
    (twoAddresses.map Update.call).foldl (step true) (some startStats) =
        some (statsAfter twoAddresses) ∧
      Distinct IpStat.ip (statsAfter twoAddresses).ipStatsList ∧
        (∃ accounts, Accounted twoAddresses accounts) ∧
          ∀ before u after, twoAddresses = before ++ u :: after →
            OnlyStale (statsAfter before) u :=
  traffic_accounted twoAddresses (by decide)

def lateCleanup : Update := ⟨text "10.0.0.1", 5, 1700000000, 1702592001⟩

/-- The clean-up of the first call reads the clock 30 days and a second after the update. -/
theorem updated_entry_removed :
    ∃ st, step true (some startStats) lateCleanup.call = some st ∧
      lateCleanup.now ≤ lateCleanup.cleanupNow ∧ ∀ e ∈ st.ipStatsList, e.ip ≠ lateCleanup.addr := by
  have hnone : (updateStats startStats lateCleanup).ipStatsList = [] := by decide
  refine ⟨_, step_update startStats lateCleanup, by decide, fun e he => ?_⟩
  rw [hnone] at he
  exact absurd he List.not_mem_nil

end CSimples.ClientServer
