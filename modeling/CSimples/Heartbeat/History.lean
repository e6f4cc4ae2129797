import CSimples.Heartbeat.HeartbeatServer
import CSimples.Lib.LinkedList
import CSimples.Lib.Run
import Mathlib.Logic.Function.Basic

/-!
# The heartbeat history (heartbeat_server.c:13-33, 148-181)

The list and its counter as they are in memory, used by any number of threads. A
thread fills its new node before it takes `history_mutex`; what it does under
the mutex is one step. `heartbeat_server.h` sets MAX_HEARTBEATS to 100; here the
limit is a parameter.
-/

namespace CSimples.HeartbeatHistory
open LinkedList HeartbeatServer Run

variable {τ D : Type}

structure Memory (D : Type) where
  heap : Heap (HeartbeatNode D)
  heartbeatHistory : Option ℕ
  heartbeatCount : ℤ

/-- The list read from `heartbeat_history`. -/
def Memory.nodes (m : Memory D) : Option (List (HeartbeatNode D)) :=
  follow m.heap m.heap.length m.heartbeatHistory

/-! ### Sections -/

/-- In front of the mutex (150-154): `malloc` has returned address `p`, which is
not in use, and what the memory holds there is arbitrary. -/
def fillNode (m : Memory D) (p : ℕ) (data : HeartbeatData D) (now : ℤ) (junk : Option ℕ) :
    Memory D :=
  { m with heap := (p, ⟨⟨data, now⟩, junk⟩) :: m.heap }

def linkNode (m : Memory D) (newNode : ℕ) (node : HeartbeatNode D) : Memory D :=
  ⟨write m.heap newNode ⟨node, m.heartbeatHistory⟩, some newNode, m.heartbeatCount + 1⟩

def removeOldest (m : Memory D) (newNode : ℕ) : Option (Memory D) := do
  let walked ← walkToEnd m.heap m.heap.length none newNode
  match walked.1 with
  | none => some m
  | some prev => do
    let last ← read m.heap prev
    let heap := write m.heap prev ⟨last.value, none⟩
    some ⟨free heap walked.2, m.heartbeatHistory, m.heartbeatCount - 1⟩

/-- Under the mutex (158-178). -/
def addToHistory (maxHeartbeats : ℕ) (m : Memory D) (newNode : ℕ) : Option (Memory D) := do
  let node ← read m.heap newNode
  let linked := linkNode m newNode node.value
  if linked.heartbeatCount > maxHeartbeats then removeOldest linked newNode else some linked

def clearHeartbeatHistory (m : Memory D) : Option (Memory D) := do
  let heap ← freeAll m.heap.length m.heap m.heartbeatHistory
  some ⟨heap, none, 0⟩

/-! ### Threads -/

/-- `pending` is the node a thread has filled and not linked yet. `added` are the
records linked since the last clear, newest first. -/
structure System (τ D : Type) where
  memory : Memory D
  pending : τ → Option ℕ
  added : List (HeartbeatNode D)

/-- In `fill`, `node` is what `malloc` returned. -/
inductive Action (τ D : Type) where
  | fill (thread : τ) (node : Option ℕ) (data : HeartbeatData D) (now : ℤ) (junk : Option ℕ)
  | link (thread : τ)
  | clear (thread : τ)

def step [DecidableEq τ] (maxHeartbeats : ℕ) (s : System τ D) : Action τ D → Option (System τ D)
  | .fill thread node data now junk =>
    match s.pending thread, node with
    | some _, _ => none
    | none, none => some s
    | none, some p =>
      if (read s.memory.heap p).isSome = true then none
      else some { s with
        memory := fillNode s.memory p data now junk
        pending := Function.update s.pending thread (some p) }
  | .link thread => do
    let p ← s.pending thread
    let node ← read s.memory.heap p
    let memory ← addToHistory maxHeartbeats s.memory p
    some ⟨memory, Function.update s.pending thread none, node.value :: s.added⟩
  | .clear thread =>
    match s.pending thread with
    | some _ => none
    | none => (clearHeartbeatHistory s.memory).map fun memory => ⟨memory, s.pending, []⟩

def start : System τ D := ⟨⟨[], none, 0⟩, fun _ => none, []⟩

/-! ### The list in memory -/

/-- `cells` are the cells of the list, and their records and the counter those of `h`. -/
structure Holds (m : Memory D) (cells : List (ℕ × HeartbeatNode D)) (h : History D) : Prop where
  linked : Linked m.heap m.heartbeatHistory cells
  distinct : (cells.map Prod.fst).Nodup
  nodes : cells.map Prod.snd = h.nodes
  count : m.heartbeatCount = h.heartbeatCount

/-- What a section does to the records: `addToHistory` of the server with any limit. -/
def addNode (maxHeartbeats : ℕ) (h : History D) (node : HeartbeatNode D) : History D :=
  if h.heartbeatCount + 1 > maxHeartbeats ∧ (node :: h.nodes).length > 1 then
    ⟨(node :: h.nodes).dropLast, h.heartbeatCount⟩
  else ⟨node :: h.nodes, h.heartbeatCount + 1⟩

theorem addToHistory_eq (h : History D) (data : HeartbeatData D) (now : ℤ) :
    HeartbeatServer.addToHistory h data true now = addNode maxHeartbeats h ⟨data, now⟩ := by
  simp only [HeartbeatServer.addToHistory, addNode, Bool.true_eq_false, if_false]

variable {m m' : Memory D} {cells : List (ℕ × HeartbeatNode D)} {h : History D} {p : ℕ}

theorem Holds.nodes_eq (hm : Holds m cells h) : m.nodes = some h.nodes := by
  rw [← hm.nodes]
  exact follow_linked hm.linked (hm.linked.length_le hm.distinct)

theorem fillNode_holds (hm : Holds m cells h) (hp : read m.heap p = none)
    (data : HeartbeatData D) (now : ℤ) (junk : Option ℕ) :
    Holds (fillNode m p data now junk) cells h := by
  refine ⟨hm.linked.frame fun e he => ?_, hm.distinct, hm.nodes, hm.count⟩
  obtain ⟨next, hread⟩ := hm.linked.allocated he
  have hne : p ≠ e.1 := by
    rintro rfl
    rw [hread] at hp
    cases hp
  rw [fillNode, read_cons, if_neg hne]

theorem removeOldest_one {node : HeartbeatNode D} (hl : Linked m.heap (some p) [(p, node)]) :
    removeOldest m p = some m := by
  have hlen := hl.length_le (List.nodup_singleton _)
  have hwalk := walkToEnd_one hl hlen none
  simp [removeOldest, hwalk]

/-- The last cell is cut off and freed; the other addresses keep what they hold. -/
theorem removeOldest_two {x y : ℕ × HeartbeatNode D} (hhead : m.heartbeatHistory = some p)
    (hm : Holds m (cells ++ [x, y]) h) :
    ∃ m', removeOldest m p = some m' ∧
      Holds m' (cells ++ [x]) ⟨h.nodes.dropLast, h.heartbeatCount - 1⟩ ∧
      ∀ q, q ∉ (cells ++ [x, y]).map Prod.fst → read m'.heap q = read m.heap q := by
  have hl : Linked m.heap (some p) (cells ++ [x, y]) := hhead ▸ hm.linked
  have hlen := hl.length_le hm.distinct
  rw [List.length_append] at hlen
  have hwalk := walkToEnd_two hl hlen none
  obtain ⟨next, hx⟩ := hl.allocated (e := x) (by simp)
  have hdistinct := hm.distinct
  simp only [List.map_append, List.map_cons, List.map_nil, List.nodup_append, List.mem_cons,
    List.nodup_cons, List.not_mem_nil, or_false] at hdistinct
  have hyx : x.1 ≠ y.1 := hdistinct.2.1.1
  have hcut := hm.linked.cut hm.distinct
  refine ⟨⟨free (write m.heap x.1 ⟨x.2, none⟩) y.1, m.heartbeatHistory, m.heartbeatCount - 1⟩,
    by simp [removeOldest, hwalk, hx], ⟨?_, ?_, ?_, by rw [hm.count]⟩, ?_⟩
  · refine hcut.frame fun e he => read_free_ne ?_
    rcases List.mem_append.mp he with he | he
    · exact hdistinct.2.2 e.1 (List.mem_map_of_mem he) y.1 (.inr rfl)
    · rw [List.mem_singleton.mp he]
      exact hyx
  · have hsub : (cells ++ [x]).Sublist (cells ++ [x, y]) :=
      (List.Sublist.refl cells).append (by simp)
    exact hm.distinct.sublist (hsub.map Prod.fst)
  · show (cells ++ [x]).map Prod.snd = h.nodes.dropLast
    have hsplit : cells ++ [x, y] = (cells ++ [x]) ++ [y] := by simp
    have hmap : (cells ++ [x, y]).map Prod.snd = (cells ++ [x]).map Prod.snd ++ [y.2] := by
      rw [hsplit, List.map_append, List.map_singleton]
    rw [← hm.nodes, hmap, List.dropLast_concat]
  · intro q hq
    have hqy : q ≠ y.1 := by
      rintro rfl
      exact hq (List.mem_map_of_mem (by simp))
    have hqx : q ≠ x.1 := by
      rintro rfl
      exact hq (List.mem_map_of_mem (by simp))
    simp only [read_free_ne hqy, read_write hx, if_neg hqx]

theorem linkNode_same {c : Cell (HeartbeatNode D)} (hp : read m.heap p = some c) {q : ℕ}
    (hq : q ≠ p) : read (linkNode m p c.value).heap q = read m.heap q := by
  rw [linkNode, read_write hp, if_neg hq]

theorem linkNode_holds {c : Cell (HeartbeatNode D)} (hm : Holds m cells h)
    (hp : read m.heap p = some c) (hnew : p ∉ cells.map Prod.fst) :
    Holds (linkNode m p c.value) ((p, c.value) :: cells)
      ⟨c.value :: h.nodes, h.heartbeatCount + 1⟩ := by
  refine ⟨⟨rfl, m.heartbeatHistory, by rw [linkNode, read_write hp, if_pos rfl], ?_⟩,
    List.nodup_cons.mpr ⟨hnew, hm.distinct⟩, by rw [List.map_cons, hm.nodes], ?_⟩
  · refine hm.linked.frame fun e he => linkNode_same hp ?_
    rintro rfl
    exact hnew (List.mem_map_of_mem he)
  · show m.heartbeatCount + 1 = h.heartbeatCount + 1
    rw [hm.count]

/-- The section does not fault, does what `addNode` says, and leaves alone what is not
in the list. -/
theorem addToHistory_holds (maxHeartbeats : ℕ) {c : Cell (HeartbeatNode D)} (hm : Holds m cells h)
    (hp : read m.heap p = some c) (hnew : p ∉ cells.map Prod.fst) :
    ∃ m' cells', addToHistory maxHeartbeats m p = some m' ∧
      Holds m' cells' (addNode maxHeartbeats h c.value) ∧
      (∀ q, q ∈ cells'.map Prod.fst → q = p ∨ q ∈ cells.map Prod.fst) ∧
      ∀ q, q ≠ p → q ∉ cells.map Prod.fst → read m'.heap q = read m.heap q := by
  have hlinked := linkNode_holds hm hp hnew
  have hrun : addToHistory maxHeartbeats m p =
      if h.heartbeatCount + 1 > maxHeartbeats then removeOldest (linkNode m p c.value) p
      else some (linkNode m p c.value) := by
    simp [addToHistory, hp, hlinked.count]
  rw [hrun]
  by_cases hfull : h.heartbeatCount + 1 > maxHeartbeats
  · rw [if_pos hfull]
    rcases List.eq_nil_or_concat' cells with rfl | ⟨front, y, rfl⟩
    · have hnil : h.nodes = [] := hm.nodes.symm
      have hadd : addNode maxHeartbeats h c.value = ⟨c.value :: h.nodes, h.heartbeatCount + 1⟩ := by
        simp [addNode, hnil]
      rw [removeOldest_one hlinked.linked, hadd]
      exact ⟨_, _, rfl, hlinked, by simp, fun q hq _ => linkNode_same hp hq⟩
    · obtain ⟨rest, x, hx⟩ : ∃ rest x, (p, c.value) :: front = rest ++ [x] := by
        rcases List.eq_nil_or_concat' ((p, c.value) :: front) with hnil | hlast
        · cases hnil
        · exact hlast
      have hcells : (p, c.value) :: (front ++ [y]) = rest ++ [x, y] := by
        rw [← List.cons_append, hx, List.append_assoc]
        rfl
      have hadd : addNode maxHeartbeats h c.value =
          ⟨(c.value :: h.nodes).dropLast, h.heartbeatCount + 1 - 1⟩ := by
        have hlong : 1 < (c.value :: h.nodes).length := by
          rw [← hm.nodes]
          simp
        rw [addNode, if_pos ⟨hfull, hlong⟩]
        simp
      rw [hcells] at hlinked
      obtain ⟨m', hrest, hm', hsame⟩ := removeOldest_two rfl hlinked
      rw [hrest, hadd]
      refine ⟨m', _, rfl, hm', ?_, ?_⟩
      · intro q hq
        have hsub : (rest ++ [x]).Sublist (rest ++ [x, y]) :=
          (List.Sublist.refl rest).append (by simp)
        have hmem := (hsub.map Prod.fst).subset hq
        rw [← hcells] at hmem
        exact List.mem_cons.mp hmem
      · intro q hqp hq
        have hout : q ∉ (rest ++ [x, y]).map Prod.fst := by
          rw [← hcells, List.map_cons, List.mem_cons]
          rintro (hqp' | hq')
          · exact hqp hqp'
          · exact hq hq'
        rw [hsame q hout, linkNode_same hp hqp]
  · have hadd : addNode maxHeartbeats h c.value = ⟨c.value :: h.nodes, h.heartbeatCount + 1⟩ := by
      simp [addNode, hfull]
    rw [if_neg hfull, hadd]
    exact ⟨_, _, rfl, hlinked, by simp, fun q hq _ => linkNode_same hp hq⟩

theorem addToHistory_refines {data : HeartbeatData D} {now : ℤ} {junk : Option ℕ}
    (hm : Holds m cells h) (hp : read m.heap p = some ⟨⟨data, now⟩, junk⟩)
    (hnew : p ∉ cells.map Prod.fst) :
    ∃ m' cells', addToHistory maxHeartbeats m p = some m' ∧
      Holds m' cells' (HeartbeatServer.addToHistory h data true now) := by
  obtain ⟨m', cells', hrun, hm', _⟩ := addToHistory_holds maxHeartbeats hm hp hnew
  exact ⟨m', cells', hrun, by rwa [addToHistory_eq]⟩

theorem clear_holds (hm : Holds m cells h) :
    ∃ m', clearHeartbeatHistory m = some m' ∧ Holds m' [] ⟨[], 0⟩ ∧
      ∀ q, q ∉ cells.map Prod.fst → read m'.heap q = read m.heap q := by
  have hlen := hm.linked.length_le hm.distinct
  obtain ⟨heap, hrun, hsame⟩ := freeAll_linked hm.linked hm.distinct hlen
  exact ⟨⟨heap, none, 0⟩, by simp [clearHeartbeatHistory, hrun],
    ⟨rfl, List.nodup_nil, rfl, rfl⟩, hsame⟩

/-! ### All interleavings -/

def newest (maxHeartbeats : ℕ) (added : List (HeartbeatNode D)) : History D :=
  ⟨added.take maxHeartbeats, (added.take maxHeartbeats).length⟩

theorem addNode_newest {maxHeartbeats : ℕ} (hmax : 1 ≤ maxHeartbeats)
    (added : List (HeartbeatNode D)) (node : HeartbeatNode D) :
    addNode maxHeartbeats (newest maxHeartbeats added) node =
      newest maxHeartbeats (node :: added) := by
  obtain ⟨n, rfl⟩ : ∃ n, maxHeartbeats = n + 1 := ⟨maxHeartbeats - 1, by omega⟩
  have hlen : (added.take (n + 1)).length = min (n + 1) added.length := List.length_take
  have hcount : (newest (n + 1) added).heartbeatCount = (added.take (n + 1)).length := rfl
  have hnodes : (newest (n + 1) added).nodes = added.take (n + 1) := rfl
  have hgoal : newest (n + 1) (node :: added) =
      ⟨node :: added.take n, ((added.take n).length + 1 : ℕ)⟩ := rfl
  have hlen' : (added.take n).length = min n added.length := List.length_take
  rw [addNode, hgoal, hnodes, hcount, List.length_cons]
  by_cases hfull : n + 1 ≤ added.length
  · have hfront : (node :: added.take (n + 1)).dropLast = node :: added.take n := by
      rw [List.dropLast_eq_take, List.length_cons, hlen, Nat.min_eq_left hfull]
      simp [List.take_take]
    rw [if_pos (by omega), hfront]
    congr 1
    omega
  · have hall : added.take (n + 1) = added := List.take_of_length_le (by omega)
    have hall' : added.take n = added := List.take_of_length_le (by omega)
    rw [if_neg (by omega), hall, hall']
    rfl

structure Inv (maxHeartbeats : ℕ) (s : System τ D) : Prop where
  held : ∃ cells, Holds s.memory cells (newest maxHeartbeats s.added) ∧
    ∀ t p, s.pending t = some p → p ∉ cells.map Prod.fst
  filled : ∀ t p, s.pending t = some p → ∃ c, read s.memory.heap p = some c
  apart : ∀ t u p, s.pending t = some p → s.pending u = some p → t = u

theorem inv_start (maxHeartbeats : ℕ) : Inv maxHeartbeats (start : System τ D) := by
  refine ⟨⟨[], ⟨rfl, List.nodup_nil, ?_, ?_⟩, fun _ _ _ => List.not_mem_nil⟩, ?_, ?_⟩
  · simp [newest, start]
  · simp [newest, start]
  · intro _ _ h
    cases h
  · intro _ _ _ h
    cases h

variable [DecidableEq τ] {maxHeartbeats : ℕ} {s s' : System τ D}

theorem inv_fill (hs : Inv maxHeartbeats s) (thread : τ) (node : Option ℕ)
    (data : HeartbeatData D) (now : ℤ) (junk : Option ℕ)
    (h : step maxHeartbeats s (.fill thread node data now junk) = some s') :
    Inv maxHeartbeats s' := by
  simp only [step] at h
  split at h
  · cases h
  · cases h
    exact hs
  · rename_i p _
    split at h
    · cases h
    · rename_i hfree
      cases h
      have hp : read s.memory.heap p = none := by simpa using hfree
      have hother : ∀ u q, s.pending u = some q → q ≠ p := by
        rintro u q hq rfl
        obtain ⟨c, hc⟩ := hs.filled u q hq
        rw [hp] at hc
        cases hc
      obtain ⟨cells, hheld, hout⟩ := hs.held
      refine ⟨⟨cells, fillNode_holds hheld hp data now junk, ?_⟩, ?_, ?_⟩
      · intro u q hq
        by_cases hu : u = thread
        · subst hu
          obtain rfl : p = q := by simpa using hq
          intro hmem
          obtain ⟨e, he, rfl⟩ := List.mem_map.mp hmem
          obtain ⟨next, hread⟩ := hheld.linked.allocated he
          rw [hp] at hread
          cases hread
        · exact hout u q (by simpa [hu] using hq)
      · intro u q hq
        by_cases hqp : p = q
        · exact ⟨_, by rw [fillNode, read_cons, if_pos hqp]⟩
        · rw [fillNode, read_cons, if_neg hqp]
          by_cases hu : u = thread
          · subst hu
            exact absurd (by simpa using hq) hqp
          · exact hs.filled u q (by simpa [hu] using hq)
      · intro t u q ht hu
        by_cases htt : t = thread <;> by_cases huu : u = thread
        · rw [htt, huu]
        · obtain rfl : p = q := by simpa [htt] using ht
          exact absurd rfl (hother u p (by simpa [huu] using hu))
        · obtain rfl : p = q := by simpa [huu] using hu
          exact absurd rfl (hother t p (by simpa [htt] using ht))
        · exact hs.apart t u q (by simpa [htt] using ht) (by simpa [huu] using hu)

theorem inv_link (hmax : 1 ≤ maxHeartbeats) (hs : Inv maxHeartbeats s) (thread : τ)
    (h : step maxHeartbeats s (.link thread) = some s') : Inv maxHeartbeats s' := by
  obtain ⟨p, hp, h⟩ := Option.bind_eq_some_iff.mp h
  obtain ⟨c, hc⟩ := hs.filled thread p hp
  obtain ⟨cells, hheld, hout⟩ := hs.held
  obtain ⟨memory, cells', hrun, hheld', hsub, hsame⟩ :=
    addToHistory_holds maxHeartbeats hheld hc (hout thread p hp)
  rw [addNode_newest hmax] at hheld'
  simp only [hc, hrun, Option.bind_eq_bind, Option.bind_some, Option.some.injEq] at h
  subst h
  have hpending : ∀ u q, Function.update s.pending thread none u = some q →
      s.pending u = some q ∧ q ≠ p := by
    intro u q hq
    by_cases hu : u = thread
    · simp [hu] at hq
    · have hq' : s.pending u = some q := by simpa [hu] using hq
      refine ⟨hq', ?_⟩
      rintro rfl
      exact hu (hs.apart u thread q hq' hp)
  refine ⟨⟨cells', hheld', ?_⟩, ?_, ?_⟩
  · intro u q hq hmem
    obtain ⟨hq, hne⟩ := hpending u q hq
    rcases hsub q hmem with hqp | hmem
    · exact hne hqp
    · exact hout u q hq hmem
  · intro u q hq
    obtain ⟨hq, hne⟩ := hpending u q hq
    obtain ⟨d, hd⟩ := hs.filled u q hq
    exact ⟨d, by rw [hsame q hne (hout u q hq), hd]⟩
  · intro t u q ht hu
    exact hs.apart t u q (hpending t q ht).1 (hpending u q hu).1

theorem inv_clear (hs : Inv maxHeartbeats s) (thread : τ)
    (h : step maxHeartbeats s (.clear thread) = some s') : Inv maxHeartbeats s' := by
  obtain ⟨cells, hheld, hout⟩ := hs.held
  obtain ⟨memory, hrun, hheld', hsame⟩ := clear_holds hheld
  have hnil : newest maxHeartbeats ([] : List (HeartbeatNode D)) = ⟨[], 0⟩ := by simp [newest]
  rw [← hnil] at hheld'
  simp only [step] at h
  split at h
  · cases h
  · simp only [hrun, Option.map_some, Option.some.injEq] at h
    subst h
    refine ⟨⟨[], hheld', fun _ _ _ => List.not_mem_nil⟩, ?_, hs.apart⟩
    intro u q hq
    obtain ⟨c, hc⟩ := hs.filled u q hq
    exact ⟨c, by rw [hsame q (hout u q hq), hc]⟩

end CSimples.HeartbeatHistory
