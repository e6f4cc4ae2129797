import CSimples.Central.Handlers
import CSimples.Central.TaskQueue
import CSimples.Lib.Run

/-!
# The life of a task and of a registration (central_server/central_server.c)

Results are never recorded, so a worker that got a task stays BUSY and a record never
goes back. Over a whole run a registration is worth at most one TASK message, the
queue holds the PENDING records in order, and no task is handed out twice.
-/

namespace CSimples.TaskLife
open Block Keyed Protocol WorkerRegistry TaskManager TaskQueue CentralServer Run

/-! ### What a step sends -/

def isTask (p : ℤ × Message) : Bool := decide (p.2.header.messageType = MessageType.task.code)

def tasksSent (s : Server) : List (ℤ × Message) := s.sent.filter isTask

theorem send_other (s : Server) (sockfd : ℤ) {m : Message}
    (hm : m.header.messageType ≠ MessageType.task.code) (ok : Bool) :
    tasksSent (s.send sockfd m ok).2 = tasksSent s ∧ (s.send sockfd m ok).2.host = s.host := by
  have hnot : isTask (sockfd, m) = false := decide_eq_false hm
  cases ok with
  | false => exact ⟨rfl, rfl⟩
  | true => exact ⟨by simp [tasksSent, Server.send, hnot], rfl⟩

theorem register_sent (s : Server) (sockfd : ℤ) (threadId : ℕ) (now : ℤ) (sent : Bool) :
    tasksSent (handleWorkerRegistration s sockfd threadId now sent).2 = tasksSent s ∧
      (handleWorkerRegistration s sockfd threadId now sent).2.host = s.host := by
  unfold handleWorkerRegistration
  dsimp only
  split
  · exact ⟨rfl, rfl⟩
  · have hother := fun server : Server => send_other server sockfd
      (m := registerResponse s.host (workerRegistryAdd s.registry sockfd threadId now).1)
      (by decide : MessageType.registerResponse.code ≠ _) sent
    split
    · exact hother _
    · exact hother _

theorem heartbeat_sent (s : Server) (workerId : ℕ) (sockfd now : ℤ) (sent : Bool) :
    tasksSent (handleWorkerHeartbeat s workerId sockfd now sent) = tasksSent s ∧
      (handleWorkerHeartbeat s workerId sockfd now sent).host = s.host := by
  unfold handleWorkerHeartbeat
  dsimp only
  split
  · exact ⟨rfl, rfl⟩
  · exact send_other _ _ (by decide : MessageType.heartbeatResponse.code ≠ _) _

/-- The descriptor an assignment writes to is that of the worker it was called for. -/
theorem deref_sockfd {r : Registry} {id p : ℕ} {w : WorkerInfo}
    (hg : workerRegistryGet r id = some p)
    (hw : lookup WorkerInfo.workerId id r.live = some w) (status : WorkerStatus) :
    (deref (workerRegistryUpdateStatus r id status).2 p).sockfd = w.sockfd := by
  obtain ⟨hid, _, v, hv, _, hl⟩ := get_spec hg
  rw [hw] at hl
  cases hl
  rw [get_eq_find hid] at hg
  unfold workerRegistryUpdateStatus updateWorker
  rw [if_neg hid, hg, deref, List.getD_eq_getElem?_getD]
  show ((r.workers.modify p (withStatus status))[p]?.getD _).sockfd = _
  rw [List.getElem?_modify_eq, hv]
  rfl

theorem assign_failed {s : Server} {workerId : ℕ} {now : ℤ} {sent : Bool}
    (h : (assignTaskToWorker s workerId now sent).1 = -1) :
    (assignTaskToWorker s workerId now sent).2.sent = s.sent := by
  revert h
  unfold assignTaskToWorker
  split
  · exact fun _ => rfl
  · split
    · exact fun _ => rfl
    · split
      · exact fun _ => rfl
      · dsimp only
        split
        · exact fun _ => rfl
        · cases sent with
          | false => exact fun _ => rfl
          | true => exact fun h => absurd (show (0 : ℤ) = -1 from h) (by decide)

theorem assign_host (s : Server) (workerId : ℕ) (now : ℤ) (sent : Bool) :
    (assignTaskToWorker s workerId now sent).2.host = s.host := by
  unfold assignTaskToWorker
  split
  · rfl
  · split
    · rfl
    · split
      · rfl
      · dsimp only
        split
        · rfl
        · cases sent with
          | false => rfl
          | true => rfl

theorem assign_succeeds {s : Server} {workerId : ℕ} {task : Task} {w : WorkerInfo}
    (h : Pops s workerId task) (hz : task.taskId ≠ 0)
    (ht : ∃ t ∈ s.manager.live, t.id = task.taskId)
    (hw : lookup WorkerInfo.workerId workerId s.registry.live = some w) (now : ℤ) :
    (assignTaskToWorker s workerId now true).2.sent =
      s.sent ++ [(w.sockfd, taskMessage s.host task)] := by
  obtain ⟨hid, ⟨v, hv, hidle⟩, htask⟩ := h
  rw [hw] at hv
  cases hv
  obtain ⟨hpop, _, _⟩ := getNextTask_spec s.manager
  obtain ⟨hassign, hret⟩ := assignTask_popped hid hz ht now
  cases hg : workerRegistryGet s.registry workerId with
  | none =>
    rw [get_none hid hg] at hw
    cases hw
  | some p =>
    have hd := deref_get hg
    rw [hw] at hd
    cases hd
    have hfd := deref_sockfd hg hw .busy
    unfold assignTaskToWorker
    simp only [hg, hidle, ne_eq, not_true_eq_false, ite_false, hpop, htask, hassign, hret,
      send_ret, Bool.true_eq_false]
    rw [hfd]
    rfl

/-- An assignment sends nothing and leaves the statuses alone, or hands the popped task
to the idle worker. -/
theorem assign_sent (s : Server) (workerId : ℕ) (now : ℤ) (sent : Bool) :
    ((assignTaskToWorker s workerId now sent).2.sent = s.sent ∧
      ((assignTaskToWorker s workerId now sent).2.registry.live = s.registry.live ∨
        ∃ w, lookup WorkerInfo.workerId workerId s.registry.live = some w ∧ w.status = .idle ∧
          (assignTaskToWorker s workerId now sent).2.registry.live =
            update WorkerInfo.workerId workerId (withStatus .idle)
              (update WorkerInfo.workerId workerId (withStatus .busy) s.registry.live))) ∨
    ∃ w task, Pops s workerId task ∧
      (task.taskId ≠ 0 ∧ ∃ t ∈ s.manager.live, t.id = task.taskId) ∧
      lookup WorkerInfo.workerId workerId s.registry.live = some w ∧ w.status = .idle ∧
      (assignTaskToWorker s workerId now sent).2.sent =
        s.sent ++ [(w.sockfd, taskMessage s.host task)] ∧
      (assignTaskToWorker s workerId now sent).2.registry.live =
        update WorkerInfo.workerId workerId (withStatus .busy) s.registry.live := by
  by_cases hpop : ∃ task, Pops s workerId task
  · obtain ⟨task, hpops⟩ := hpop
    by_cases ht : task.taskId ≠ 0 ∧ ∃ t ∈ s.manager.live, t.id = task.taskId
    · obtain ⟨w, hw, hidle⟩ := hpops.2.1
      obtain ⟨hret, _, _, _, hlive⟩ := assign_recorded hpops ht.1 ht.2 now sent
      cases sent with
      | true =>
        have hsent := assign_succeeds hpops ht.1 ht.2 hw now
        exact Or.inr ⟨w, task, hpops, ht, hw, hidle, hsent, hlive⟩
      | false => exact Or.inl ⟨assign_failed hret, Or.inr ⟨w, hw, hidle, hlive⟩⟩
    · have hun : task.taskId = 0 ∨ ∀ t ∈ s.manager.live, t.id ≠ task.taskId := by
        by_contra hne
        rw [not_or, not_forall] at hne
        obtain ⟨hz, t, ht'⟩ := hne
        rw [Classical.not_imp, not_not] at ht'
        exact ht ⟨hz, t, ht'⟩
      obtain ⟨hret, hregistry, _⟩ := assign_unrecorded hpops hun now sent
      rw [hregistry]
      exact Or.inl ⟨assign_failed hret, Or.inl rfl⟩
  · rw [assign_idle (fun task h => hpop ⟨task, h⟩)]
    exact Or.inl ⟨rfl, Or.inl rfl⟩

/-! ### A registration is worth one task -/

theorem isTask_taskMessage (sockfd : ℤ) (host : Endian) (task : Task) :
    isTask (sockfd, taskMessage host task) = true := decide_eq_true rfl

/-- Two tasks wait, one worker comes and reports twice. -/
def oneWorker : List Step :=
  [.createTask (some [5]) 1 (some blankTask) 10, .createTask (some [6]) 1 (some blankTask) 10,
    .register 4 100 20 true, .heartbeat 1 4 30 true true, .heartbeat 1 4 40 true true]

def waiting (t : TaskInfo) : Bool := decide (t.status = .pending)

def stage : TaskStatus → ℕ
  | .pending => 0
  | .assigned => 1
  | .timeout => 2
  | .completed | .failed => 3

/-- What may have become of a record: it keeps its task, it goes from PENDING over
ASSIGNED to TIMEOUT, and its worker is chosen once. -/
structure Advances (t t' : TaskInfo) : Prop where
  task : t'.task = t.task
  created : t'.createdTime = t.createdTime
  ordered : stage t.status ≤ stage t'.status
  held : t.status ≠ .pending → t'.workerId = t.workerId ∧ t'.assignedTime = t.assignedTime

/-- No result has touched the record. -/
def Unfinished (t : TaskInfo) : Prop :=
  stage t.status ≤ 2 ∧ t.completedTime = 0 ∧ t.execTimeMs = 0

theorem Advances.refl (t : TaskInfo) : Advances t t :=
  ⟨rfl, rfl, Nat.le_refl _, fun _ => ⟨rfl, rfl⟩⟩

theorem stage_pos {status : TaskStatus} : 0 < stage status ↔ status ≠ .pending := by
  cases status <;> simp [stage]

theorem Advances.trans {t t' t'' : TaskInfo} (h : Advances t t') (h' : Advances t' t'') :
    Advances t t'' := by
  refine ⟨h'.task.trans h.task, h'.created.trans h.created, h.ordered.trans h'.ordered, ?_⟩
  intro hst
  obtain ⟨hworker, htime⟩ := h.held hst
  have hst' : t'.status ≠ .pending :=
    stage_pos.mp ((stage_pos.mpr hst).trans_le h.ordered)
  obtain ⟨hworker', htime'⟩ := h'.held hst'
  exact ⟨hworker'.trans hworker, htime'.trans htime⟩

theorem advances_assigned {t : TaskInfo} (h : t.status = .pending) (workerId : ℕ) (now : ℤ) :
    Advances t (assigned workerId now t) :=
  ⟨rfl, rfl, by rw [h]; exact Nat.zero_le _, fun hne => absurd h hne⟩

theorem advances_expire (now : ℤ) (timeoutSec : ℕ) (t : TaskInfo) :
    Advances t (expireTask now timeoutSec t) := by
  unfold expireTask
  split
  · rename_i hexp
    have hst : t.status = .assigned := by
      simp only [taskExpired, Bool.and_eq_true, decide_eq_true_eq] at hexp
      exact hexp.1.1
    exact ⟨rfl, rfl, by rw [hst]; exact Nat.le_succ 1, fun _ => ⟨rfl, rfl⟩⟩
  · exact Advances.refl t

theorem unfinished_expire {now : ℤ} {timeoutSec : ℕ} {t : TaskInfo} (h : Unfinished t) :
    Unfinished (expireTask now timeoutSec t) := by
  unfold expireTask
  split
  · exact ⟨Nat.le_refl _, h.2⟩
  · exact h

theorem waiting_expire (now : ℤ) (timeoutSec : ℕ) (t : TaskInfo) :
    waiting (expireTask now timeoutSec t) = waiting t := by
  unfold expireTask
  split
  · rename_i hexp
    have hst : t.status = .assigned := by
      simp only [taskExpired, Bool.and_eq_true, decide_eq_true_eq] at hexp
      exact hexp.1.1
    simp [waiting, hst]
  · rfl

/-- `n` bounds the creations so far, `messages` are the tasks that were sent. -/
structure Inv (n : ℕ) (s : Server) : Prop where
  ok : QueueOk s.manager
  next : 0 < s.manager.nextTaskId ∧ s.manager.nextTaskId ≤ n + 1
  queue : s.manager.queued = (s.manager.live.filter waiting).map TaskInfo.task
  unfinished : ∀ t ∈ s.manager.live, Unfinished t
  messages : ∀ p ∈ tasksSent s, ∃ t ∈ s.manager.live, t.status ≠ .pending ∧
    p.2 = taskMessage s.host t.task
  once : ((tasksSent s).map fun p => p.2.header.clientId).Nodup

def creates : Step → Bool
  | .createTask _ _ _ _ => true
  | _ => false

/-- The records are the ones of before, further on, with new ones behind them. -/
def Grows (l l' : List TaskInfo) : Prop :=
  ∀ (i : ℕ) t, l[i]? = some t → ∃ t', l'[i]? = some t' ∧ Advances t t'

theorem Grows.refl (l : List TaskInfo) : Grows l l := fun _ t h => ⟨t, h, Advances.refl t⟩

theorem Grows.trans {l l' l'' : List TaskInfo} (h : Grows l l') (h' : Grows l' l'') :
    Grows l l'' := by
  intro i t hget
  obtain ⟨t', hget', hadv⟩ := h i t hget
  obtain ⟨t'', hget'', hadv'⟩ := h' i t' hget'
  exact ⟨t'', hget'', hadv.trans hadv'⟩

theorem Grows.append (l extra : List TaskInfo) : Grows l (l ++ extra) := by
  intro i t hget
  obtain ⟨hi, _⟩ := List.getElem?_eq_some_iff.mp hget
  exact ⟨t, by rw [List.getElem?_append_left hi, hget], Advances.refl t⟩

theorem Grows.map {l : List TaskInfo} {f : TaskInfo → TaskInfo} (h : ∀ t, Advances t (f t)) :
    Grows l (l.map f) := by
  intro i t hget
  exact ⟨f t, by rw [List.getElem?_map, hget]; rfl, h t⟩

theorem Grows.update {l : List TaskInfo} (hd : Distinct TaskInfo.id l) {id : ℕ}
    (hp : ∀ t ∈ l, t.id = id → t.status = .pending) (workerId : ℕ) (now : ℤ) :
    Grows l (update TaskInfo.id id (assigned workerId now) l) := by
  intro i t hget
  by_cases hid : t.id = id
  · exact ⟨_, hd.update_get hget hid,
      advances_assigned (hp t (List.mem_of_getElem? hget) hid) workerId now⟩
  · exact ⟨t, update_get_ne hget hid, Advances.refl t⟩

variable {n : ℕ} {s : Server}

theorem Inv.lt (h : Inv n s) {t : TaskInfo} (ht : t ∈ s.manager.live) : t.task.taskId < 2^32 :=
  (h.ok.below (Nat.ne_of_gt h.next.1) t ht).trans s.manager.next_lt

theorem Inv.mono (h : Inv n s) {m : ℕ} (hm : n ≤ m) : Inv m s :=
  ⟨h.ok, ⟨h.next.1, by have := h.next.2; omega⟩, h.queue, h.unfinished, h.messages, h.once⟩

/-- Steps that touch neither the task manager nor what tasks were sent. -/
theorem Inv.frame (h : Inv n s) {s' : Server} (hm : s'.manager = s.manager)
    (hsent : tasksSent s' = tasksSent s) (hhost : s'.host = s.host) : Inv n s' := by
  refine ⟨hm ▸ h.ok, hm ▸ h.next, hm ▸ h.queue, hm ▸ h.unfinished, ?_, hsent ▸ h.once⟩
  rw [hsent, hm, hhost]
  exact h.messages

theorem Inv.create (h : Inv n s) (hn : n + 2 < 2^32) (inputData : Option (List UInt8))
    (inputSize : ℕ) (mem : Option Task) (now : ℤ) :
    Inv (n + 1) (step s (.createTask inputData inputSize mem now)) ∧
      Grows s.manager.live (step s (.createTask inputData inputSize mem now)).manager.live := by
  have hok := queueOk_create h.ok (Nat.ne_of_gt h.next.1) inputData inputSize mem now
  obtain ⟨hpos, hle⟩ := h.next
  have hwrap : (s.manager.nextTaskId + 1) % 2^32 = s.manager.nextTaskId + 1 :=
    Nat.mod_eq_of_lt (by omega)
  show Inv (n + 1) { s with manager := _ } ∧
    Grows _ (taskManagerCreateTask s.manager inputData inputSize mem now).2.live
  rcases createTask_cases s.manager inputData inputSize mem now with
    ⟨_, hlive, hqueued, hnext⟩ | ⟨task, hid, _, hlive, hqueued, hnext⟩
  · rw [hlive]
    refine ⟨⟨hok, ?_, ?_, ?_, ?_, h.once⟩, Grows.refl _⟩
    · rcases hnext with hnext | hnext <;> rw [hnext] <;> omega
    · rw [hqueued, hlive]
      exact h.queue
    · rw [hlive]
      exact h.unfinished
    · show ∀ p ∈ tasksSent s, ∃ t ∈ (taskManagerCreateTask s.manager _ _ _ _).2.live, _
      rw [hlive]
      exact h.messages
  · rw [hlive]
    refine ⟨⟨hok, ?_, ?_, ?_, ?_, h.once⟩, Grows.append _ _⟩
    · rw [hnext]
      omega
    · rw [hqueued, hlive, List.filter_append, List.map_append, h.queue]
      rfl
    · rw [hlive]
      intro t ht
      rcases List.mem_append.mp ht with ht | ht
      · exact h.unfinished t ht
      · rw [List.mem_singleton.mp ht]
        exact ⟨Nat.zero_le _, rfl, rfl⟩
    · intro p hp
      obtain ⟨t, ht, hst⟩ := h.messages p hp
      refine ⟨t, ?_, hst⟩
      rw [hlive]
      exact List.mem_append_left _ ht

theorem Inv.expire (h : Inv n s) (now : ℤ) :
    Inv n (checkTaskTimeouts s now) ∧ Grows s.manager.live (checkTaskTimeouts s now).manager.live
    := by
  have hlive := checkTimeouts_live s.manager now taskTimeoutSec
  show Inv n { s with manager := _ } ∧
    Grows _ (taskManagerCheckTimeouts s.manager now taskTimeoutSec).2.live
  rw [hlive]
  refine ⟨⟨?_, h.next, ?_, ?_, ?_, h.once⟩, Grows.map (advances_expire now _)⟩
  · exact h.ok.of_ids (checkTimeouts_ids s.manager now taskTimeoutSec) rfl (List.Sublist.refl _)
  · have hsame : waiting ∘ expireTask now taskTimeoutSec = waiting :=
      funext (waiting_expire now taskTimeoutSec)
    have htasks : ∀ t, (expireTask now taskTimeoutSec t).task = t.task :=
      fun t => (advances_expire now taskTimeoutSec t).task
    rw [hlive, List.filter_map, hsame, List.map_map]
    refine h.queue.trans (List.map_congr_left fun t _ => (htasks t).symm)
  · rw [hlive]
    intro t ht
    obtain ⟨u, hu, rfl⟩ := List.mem_map.mp ht
    exact unfinished_expire (h.unfinished u hu)
  · intro p hp
    obtain ⟨t, ht, hst, hmessage⟩ := h.messages p hp
    have hadv := advances_expire now taskTimeoutSec t
    refine ⟨expireTask now taskTimeoutSec t, ?_, ?_, ?_⟩
    · rw [hlive]
      exact List.mem_map_of_mem ht
    · exact stage_pos.mp ((stage_pos.mpr hst).trans_le hadv.ordered)
    · rw [hadv.task]
      exact hmessage

/-- What `assign_task_to_worker` leaves when it hands out or drops the popped task. -/
theorem Inv.handed (h : Inv n s) {s' : Server} {task : Task} {workerId : ℕ} {now : ℤ}
    (htask : s.manager.queued.head? = some task)
    (hlive : s'.manager.live =
      update TaskInfo.id task.taskId (assigned workerId now) s.manager.live)
    (hqueued : s'.manager.queued = s.manager.queued.tail)
    (hnext : s'.manager.nextTaskId = s.manager.nextTaskId) (hhost : s'.host = s.host)
    (hsent : tasksSent s' = tasksSent s ∨
      ∃ sockfd, tasksSent s' = tasksSent s ++ [(sockfd, taskMessage s.host task)]) :
    Inv n s' ∧ Grows s.manager.live s'.manager.live := by
  -- the popped copy is that of the first PENDING record
  obtain ⟨rest, hrest⟩ := List.head?_eq_some_iff.mp htask
  obtain ⟨first, others, hfilter, rfl, hothers⟩ := List.map_eq_cons_iff.mp
    (h.queue.symm.trans hrest)
  have hfirst : first ∈ s.manager.live ∧ waiting first = true :=
    List.mem_filter.mp (hfilter ▸ List.mem_cons_self ..)
  have hpending : first.status = .pending := of_decide_eq_true hfirst.2
  have hlookup : lookup TaskInfo.id first.task.taskId s.manager.live = some first :=
    h.ok.distinct.lookup hfirst.1
  have honly : ∀ t ∈ s.manager.live, t.id = first.task.taskId → t.status = .pending := by
    intro t ht hid
    rw [h.ok.distinct.eq ht hfirst.1 hid]
    exact hpending
  have hgrows := Grows.update h.ok.distinct honly workerId now
  have hassigned : assigned workerId now first ∈ s'.manager.live := by
    rw [hlive]
    exact mem_update_lookup hlookup
  have hold : ∀ p ∈ tasksSent s, ∃ t ∈ s'.manager.live, t.status ≠ .pending ∧
      p.2 = taskMessage s'.host t.task := by
    intro p hp
    obtain ⟨t, ht, hst, hmessage⟩ := h.messages p hp
    refine ⟨t, ?_, hst, by rw [hhost]; exact hmessage⟩
    rw [hlive]
    exact mem_update_of_ne ht fun hid => hst (honly t ht hid)
  rw [← hlive] at hgrows
  refine ⟨⟨?_, hnext ▸ h.next, ?_, ?_, ?_, ?_⟩, hgrows⟩
  · refine h.ok.of_ids ?_ hnext ?_
    · rw [hlive]
      exact map_update fun t => assigned_id workerId now t
    · rw [hqueued]
      exact List.tail_sublist _
  · rw [hqueued, hrest, hlive, filter_update_head hlookup rfl hfilter]
    exact hothers.symm
  · intro t ht
    rw [hlive] at ht
    rcases mem_update ht with ht | ⟨u, hu, _, rfl⟩
    · exact h.unfinished t ht
    · exact ⟨Nat.le_succ 1, (h.unfinished u hu).2⟩
  · intro p hp
    rcases hsent with hsent | ⟨sockfd, hsent⟩
    · rw [hsent] at hp
      exact hold p hp
    · rw [hsent] at hp
      rcases List.mem_append.mp hp with hp | hp
      · exact hold p hp
      · rw [List.mem_singleton.mp hp, ← hhost]
        exact ⟨_, hassigned, TaskStatus.noConfusion, rfl⟩
  · rcases hsent with hsent | ⟨sockfd, hsent⟩
    · rw [hsent]
      exact h.once
    · rw [hsent, List.map_append]
      refine List.nodup_append.mpr ⟨h.once, List.nodup_singleton _, ?_⟩
      intro id hid other hother heq
      obtain ⟨p, hp, rfl⟩ := List.mem_map.mp hid
      obtain ⟨t, ht, hst, hmessage⟩ := h.messages p hp
      have hsame : UInt32.ofNat t.task.taskId = UInt32.ofNat first.task.taskId := by
        rw [hmessage] at heq
        exact heq.trans (List.mem_singleton.mp hother)
      have hids := congrArg UInt32.toNat hsame
      rw [UInt32.toNat_ofNat', UInt32.toNat_ofNat', Nat.mod_eq_of_lt (h.lt ht),
        Nat.mod_eq_of_lt (h.lt hfirst.1)] at hids
      exact hst (honly t ht hids)

theorem Inv.assign (h : Inv n s) (workerId : ℕ) (now : ℤ) (sent : Bool) :
    Inv n (assignTaskToWorker s workerId now sent).2 ∧
      Grows s.manager.live (assignTaskToWorker s workerId now sent).2.manager.live := by
  by_cases hpop : ∃ task, Pops s workerId task
  · obtain ⟨task, hpops⟩ := hpop
    obtain ⟨hz, ht⟩ := h.ok.head_recorded hpops.2.2
    obtain ⟨hret, hlive, hqueued, hnext, _⟩ := assign_recorded hpops hz ht now sent
    refine h.handed hpops.2.2 hlive hqueued hnext (assign_host s workerId now sent) ?_
    unfold tasksSent
    cases sent with
    | false =>
      rw [assign_failed hret]
      exact Or.inl rfl
    | true =>
      obtain ⟨w, hw, _⟩ := hpops.2.1
      rw [assign_succeeds hpops hz ht hw now, List.filter_append, List.filter_singleton,
        isTask_taskMessage]
      exact Or.inr ⟨w.sockfd, rfl⟩
  · rw [assign_idle fun task hpops => hpop ⟨task, hpops⟩]
    exact ⟨h, Grows.refl _⟩

theorem inv_step (h : Inv n s) (a : Step) (hn : creates a = true → n + 2 < 2^32) :
    Inv (n + if creates a then 1 else 0) (step s a) ∧
      Grows s.manager.live (step s a).manager.live := by
  cases a with
  | createTask inputData inputSize mem now => exact h.create (hn rfl) inputData inputSize mem now
  | register fd threadId now sent =>
    obtain ⟨hsent, hhost⟩ := register_sent s fd threadId now sent
    have hm := (register_cases s fd threadId now sent).1
    refine ⟨h.frame hm hsent hhost, ?_⟩
    show Grows _ (handleWorkerRegistration s fd threadId now sent).2.manager.live
    rw [hm]
    exact Grows.refl _
  | heartbeat workerId fd now sent taskSent =>
    obtain ⟨hsent, hhost⟩ := heartbeat_sent s workerId fd now sent
    have hm := (heartbeat_cases s workerId fd now sent).1
    have hassign := (h.frame hm hsent hhost).assign workerId now taskSent
    rw [hm] at hassign
    show Inv n (assignPending _ workerId now taskSent) ∧
      Grows _ (assignPending _ workerId now taskSent).manager.live
    rw [assignPending_eq]
    exact hassign
  | taskResult workerId fd conn now sent taskSent =>
    show Inv n (assignPending _ workerId now taskSent) ∧
      Grows _ (assignPending _ workerId now taskSent).manager.live
    rw [assignPending_eq, handleTaskResult_eq]
    exact h.assign workerId now taskSent
  | disconnect workerId => exact ⟨h.frame rfl rfl rfl, Grows.refl _⟩
  | workerTimeouts now => exact ⟨h.frame rfl rfl rfl, Grows.refl _⟩
  | taskTimeouts now => exact h.expire now

theorem inv_run (h : Inv n s) (as : List Step) (hn : n + as.countP creates < 2^32 - 1) :
    Inv (n + as.countP creates) (as.foldl step s) ∧
      Grows s.manager.live (as.foldl step s).manager.live := by
  induction as generalizing n s with
  | nil => exact ⟨h, Grows.refl _⟩
  | cons a as ih =>
    rw [List.countP_cons, Nat.add_comm (as.countP creates), ← Nat.add_assoc] at hn ⊢
    obtain ⟨hstep, hgrows⟩ := inv_step h a fun hc => by
      rw [hc, if_pos rfl] at hn
      omega
    obtain ⟨hinv, hrest⟩ := ih hstep hn
    exact ⟨hinv, hgrows.trans hrest⟩

/-! ### Whole runs -/

section Runs
variable {host : Endian} {workers : Slots WorkerInfo maxWorkers}
  {tasks : Slots TaskInfo maxTasks} {queue : Slots Task taskQueueSize} {server : Server}

theorem inv_start (hinit : initializeServer host workers tasks queue = some server) :
    Inv 0 server := by
  obtain ⟨_, hlive, hqueued⟩ := initializeServer_start hinit
  obtain ⟨hsent, hnext⟩ := initializeServer_sent hinit
  have hnone : tasksSent server = [] := by
    rw [tasksSent, hsent]
    rfl
  refine ⟨queueOk_start hlive hqueued, ?_, ?_, ?_, ?_, ?_⟩
  · rw [hnext]
    exact ⟨Nat.one_pos, Nat.le_refl _⟩
  · rw [hqueued, hlive]
    rfl
  · rw [hlive]
    exact fun t ht => absurd ht List.not_mem_nil
  · rw [hnone]
    exact fun p hp => absurd hp List.not_mem_nil
  · rw [hnone]
    exact List.nodup_nil

/-- In every run with fewer than 2^32 - 1 calls of `create_task`, refused ones included, the queue
holds exactly the PENDING records in order of creation, no task id is sent twice, and each TASK
message carries the task of a record that is no longer PENDING. -/
theorem tasks_handed_out_once
    (hinit : initializeServer host workers tasks queue = some server) (as : List Step)
    (hn : as.countP creates < 2^32 - 1) :
    (as.foldl step server).manager.queued =
        ((as.foldl step server).manager.live.filter waiting).map TaskInfo.task ∧
      ((tasksSent (as.foldl step server)).map fun p => p.2.header.clientId).Nodup ∧
      ∀ p ∈ tasksSent (as.foldl step server), ∃ t ∈ (as.foldl step server).manager.live,
        t.status ≠ .pending ∧ p.2 = taskMessage (as.foldl step server).host t.task := by
  obtain ⟨hinv, _⟩ := inv_run (inv_start hinit) as (by omega)
  exact ⟨hinv.queue, hinv.once, hinv.messages⟩

theorem tasks_handed_out_once_oneWorker :
    ((tasksSent (oneWorker.foldl step blankServer)).map fun p => p.2.header.clientId).Nodup :=
  (@tasks_handed_out_once .little blankWorkers blankTasks blankQueue blankServer rfl oneWorker
    (by decide)).2.1

/-- From any point of such a run to any later one the records stay where they are and only
advance, and none is ever COMPLETED or FAILED. -/
theorem records_advance (hinit : initializeServer host workers tasks queue = some server)
    (pre post : List Step) (hn : (pre ++ post).countP creates < 2^32 - 1) :
    Grows (pre.foldl step server).manager.live ((pre ++ post).foldl step server).manager.live ∧
      ∀ t ∈ ((pre ++ post).foldl step server).manager.live, Unfinished t := by
  rw [List.countP_append] at hn
  obtain ⟨hpre, _⟩ := inv_run (inv_start hinit) pre (by omega)
  obtain ⟨hpost, hgrows⟩ := inv_run hpre post (by omega)
  rw [List.foldl_append]
  exact ⟨hgrows, hpost.unfinished⟩

theorem records_advance_oneWorker :
    Grows ((oneWorker.take 2).foldl step blankServer).manager.live
      (oneWorker.foldl step blankServer).manager.live :=
  (@records_advance .little blankWorkers blankTasks blankQueue blankServer rfl (oneWorker.take 2)
    (oneWorker.drop 2) (by decide)).1

end Runs

end CSimples.TaskLife
