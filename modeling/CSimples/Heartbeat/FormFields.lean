import CSimples.Heartbeat.HeartbeatServer
import Mathlib.Data.List.Nodup
import Mathlib.Data.List.Perm.Subperm

/-!
# Form heartbeats (heartbeat_server.c:299-376)

The loop over the pairs counts the fields that it sets, and seven are enough,
whichever they are. What a body gives is compared here with what is accepted.
-/

namespace CSimples.HeartbeatServer
open CString

/-! ### The seven fields -/

inductive Field where
  | localIp
  | publicIp
  | cpuUsage
  | memoryUsage
  | diskUsage
  | availability
  | latency
  deriving Repr, DecidableEq

def Field.all : List Field :=
  [.localIp, .publicIp, .cpuUsage, .memoryUsage, .diskUsage, .availability, .latency]

def Field.key : Field → List UInt8
  | .localIp => text "local_ip"
  | .publicIp => text "public_ip"
  | .cpuUsage => text "cpu_usage"
  | .memoryUsage => text "memory_usage"
  | .diskUsage => text "disk_usage"
  | .availability => text "availability"
  | .latency => text "latency"

def Field.isIp : Field → Bool
  | .localIp | .publicIp => true
  | _ => false

variable {D J : Type} (c : Checks D)

def Field.valid (f : Field) (value : List UInt8) : Bool :=
  match f with
  | .localIp | .publicIp => c.validateIp value
  | .latency => c.validateLatency (c.atof value)
  | _ => c.validatePercentage (c.atof value)

def Field.store (f : Field) (value : List UInt8) (d : HeartbeatData D) : HeartbeatData D :=
  match f with
  | .localIp => d.withLocalIp value
  | .publicIp => d.withPublicIp value
  | .cpuUsage => { d with cpuUsage := c.atof value }
  | .memoryUsage => { d with memoryUsage := c.atof value }
  | .diskUsage => { d with diskUsage := c.atof value }
  | .availability => { d with availability := c.atof value }
  | .latency => { d with latency := c.atof value }

/-- The field of the record is the value, as a string or as a number. -/
def Field.holds (f : Field) (d : HeartbeatData D) (value : List UInt8) : Prop :=
  match f with
  | .localIp => cstr d.localIp = value
  | .publicIp => cstr d.publicIp = value
  | .cpuUsage => d.cpuUsage = c.atof value
  | .memoryUsage => d.memoryUsage = c.atof value
  | .diskUsage => d.diskUsage = c.atof value
  | .availability => d.availability = c.atof value
  | .latency => d.latency = c.atof value

/-- What is left of a value in the record. -/
def Field.cut (f : Field) (value : List UInt8) : List UInt8 :=
  if f.isIp = true then value.take (maxIpLen - 1) else value

def fieldOf (key : List UInt8) : Option Field := Field.all.find? fun f => decide (key = f.key)

theorem fieldOf_key (f : Field) : fieldOf f.key = some f := by
  cases f <;> decide

theorem fieldOf_some {key : List UInt8} {f : Field} (h : fieldOf key = some f) : key = f.key := by
  have hfound := List.find?_some h
  exact of_decide_eq_true hfound

theorem fieldOf_none {key : List UInt8} (h : fieldOf key = none) (f : Field) : key ≠ f.key := by
  rintro rfl
  rw [fieldOf_key] at h
  cases h

theorem mem_all (f : Field) : f ∈ Field.all := by cases f <;> decide

theorem all_nodup : Field.all.Nodup := by decide

/-! ### The loop -/

theorem setField_valid (s : HeartbeatData D × ℕ) {f : Field} {value : List UInt8}
    (h : f.valid c value = true) :
    setField c s f.key value = (f.store c value s.1, s.2 + 1) := by
  cases f <;> simp only [Field.valid] at h <;> simp +decide [setField, Field.store, h]

theorem setField_invalid (s : HeartbeatData D × ℕ) {f : Field} {value : List UInt8}
    (h : ¬ f.valid c value = true) : setField c s f.key value = s := by
  cases f <;> simp only [Field.valid] at h <;> simp +decide [setField, h]

theorem setField_unknown (s : HeartbeatData D × ℕ) {key : List UInt8}
    (h : ∀ f : Field, key ≠ f.key) (value : List UInt8) : setField c s key value = s := by
  have h1 : key ≠ text "local_ip" := h .localIp
  have h2 : key ≠ text "public_ip" := h .publicIp
  have h3 : key ≠ text "cpu_usage" := h .cpuUsage
  have h4 : key ≠ text "memory_usage" := h .memoryUsage
  have h5 : key ≠ text "disk_usage" := h .diskUsage
  have h6 : key ≠ text "availability" := h .availability
  have h7 : key ≠ text "latency" := h .latency
  simp only [setField, h1, h2, h3, h4, h5, h6, h7, false_and, if_false]

def accepted (tokens : List (List UInt8)) : List (List UInt8 × List UInt8) :=
  tokens.filterMap fun pair => parseKeyValue pair maxKeyLen maxValueLen

/-- A pair with a known key and a valid value. -/
def entry (p : List UInt8 × List UInt8) : Option (Field × List UInt8) :=
  (fieldOf p.1).bind fun f => if f.valid c p.2 = true then some (f, p.2) else none

def entries (tokens : List (List UInt8)) : List (Field × List UInt8) :=
  (accepted tokens).filterMap (entry c)

def storeAll (l : List (Field × List UInt8)) (d : HeartbeatData D) : HeartbeatData D :=
  l.foldl (fun d e => e.1.store c e.2 d) d

variable {c}

theorem entry_some {p : List UInt8 × List UInt8} {f : Field} {value : List UInt8} :
    entry c p = some (f, value) ↔ p = (f.key, value) ∧ f.valid c value = true := by
  obtain ⟨key, v⟩ := p
  unfold entry
  constructor
  · intro h
    obtain ⟨g, hg, hif⟩ := Option.bind_eq_some_iff.mp h
    split at hif
    · rename_i hvalid
      cases hif
      exact ⟨by rw [← fieldOf_some hg], hvalid⟩
    · cases hif
  · rintro ⟨heq, hvalid⟩
    cases heq
    simp only [fieldOf_key, Option.bind_some, hvalid, if_true]

theorem mem_entries {tokens : List (List UInt8)} {f : Field} {value : List UInt8} :
    (f, value) ∈ entries c tokens ↔
      (f.key, value) ∈ accepted tokens ∧ f.valid c value = true := by
  unfold entries
  rw [List.mem_filterMap]
  constructor
  · rintro ⟨p, hp, he⟩
    obtain ⟨rfl, hvalid⟩ := entry_some.mp he
    exact ⟨hp, hvalid⟩
  · intro ⟨hp, hvalid⟩
    exact ⟨_, hp, entry_some.mpr ⟨rfl, hvalid⟩⟩

theorem setField_entry (s : HeartbeatData D × ℕ) (key value : List UInt8) :
    setField c s key value = match entry c (key, value) with
      | some e => (e.1.store c e.2 s.1, s.2 + 1)
      | none => s := by
  unfold entry
  cases hf : fieldOf key with
  | none => exact setField_unknown c s (fieldOf_none hf) value
  | some f =>
    rw [fieldOf_some hf, Option.bind_some]
    by_cases hv : f.valid c value = true
    · rw [setField_valid c s hv, if_pos hv]
    · rw [setField_invalid c s hv, if_neg hv]

theorem formFields_eq (tokens : List (List UInt8)) (s : HeartbeatData D × ℕ) :
    formFields c s tokens =
      (storeAll c (entries c tokens) s.1, s.2 + (entries c tokens).length) := by
  induction tokens generalizing s with
  | nil => rfl
  | cons pair tokens ih =>
    rw [formFields]
    cases hp : parseKeyValue pair maxKeyLen maxValueLen with
    | none =>
      have hsame : entries c (pair :: tokens) = entries c tokens := by
        simp only [entries, accepted, List.filterMap_cons, hp]
      rw [hsame]
      exact ih s
    | some p =>
      obtain ⟨key, value⟩ := p
      dsimp only
      rw [ih, setField_entry]
      cases he : entry c (key, value) with
      | none =>
        have hsame : entries c (pair :: tokens) = entries c tokens := by
          simp only [entries, accepted, List.filterMap_cons, hp, he]
        rw [hsame]
      | some e =>
        have hmore : entries c (pair :: tokens) = e :: entries c tokens := by
          simp only [entries, accepted, List.filterMap_cons, hp, he]
        rw [hmore, List.length_cons]
        dsimp only
        rw [Nat.add_right_comm, Nat.add_assoc]
        rfl

/-! ### What the record holds -/

/-- The last byte of both addresses is never written. -/
def Padded (d : HeartbeatData D) : Prop :=
  d.localIp[maxIpLen - 1]? = some 0 ∧ d.publicIp[maxIpLen - 1]? = some 0

theorem noData_padded : Padded (noData c) := by
  constructor <;> rfl

theorem store_padded {d : HeartbeatData D} (h : Padded d) (f : Field) (value : List UInt8) :
    Padded (f.store c value d) := by
  have habove := strncpy_above d.localIp value (Nat.le_refl (maxIpLen - 1))
  have habove' := strncpy_above d.publicIp value (Nat.le_refl (maxIpLen - 1))
  cases f with
  | localIp => exact ⟨habove.trans h.1, h.2⟩
  | publicIp => exact ⟨h.1, habove'.trans h.2⟩
  | _ => exact h

theorem store_holds {d : HeartbeatData D} (h : Padded d) (f : Field) {value : List UInt8}
    (hstr : (0 : UInt8) ∉ value) : f.holds c (f.store c value d) (f.cut value) := by
  have hcut := cstr_strncpy value h.1
  have hcut' := cstr_strncpy value h.2
  rw [cstr_eq_self hstr] at hcut hcut'
  cases f with
  | localIp => exact hcut
  | publicIp => exact hcut'
  | _ => rfl

theorem store_other {f g : Field} (hne : f ≠ g) (d : HeartbeatData D) (value value' : List UInt8) :
    f.holds c (g.store c value d) value' ↔ f.holds c d value' := by
  cases f <;> cases g <;> first | exact absurd rfl hne | exact Iff.rfl

theorem storeAll_holds {l : List (Field × List UInt8)} (hstr : ∀ e ∈ l, (0 : UInt8) ∉ e.2)
    {d : HeartbeatData D} (h : Padded d) (f : Field) :
    (∃ value, (f, value) ∈ l ∧ f.holds c (storeAll c l d) (f.cut value)) ∨
      (∀ value, (f, value) ∉ l) ∧
        ∀ value, f.holds c d value → f.holds c (storeAll c l d) value := by
  induction l generalizing d with
  | nil => exact .inr ⟨fun _ => List.not_mem_nil, fun _ hd => hd⟩
  | cons e l ih =>
    obtain ⟨g, value⟩ := e
    have hrest := ih (fun e he => hstr e (List.mem_cons_of_mem _ he)) (store_padded (c := c) h g value)
    rcases hrest with ⟨v, hmem, hholds⟩ | ⟨habsent, hkept⟩
    · exact .inl ⟨v, List.mem_cons_of_mem _ hmem, hholds⟩
    · by_cases hfg : f = g
      · subst hfg
        have hstored := store_holds (c := c) h f (hstr _ (List.mem_cons_self ..))
        exact .inl ⟨value, List.mem_cons_self .., hkept _ hstored⟩
      · right
        constructor
        · intro v hmem
          rcases List.mem_cons.mp hmem with heq | hmem
          · exact hfg (congrArg Prod.fst heq)
          · exact habsent v hmem
        · intro v hd
          exact hkept v ((store_other hfg d value v).mpr hd)

/-! ### Complete bodies -/

/-- Each of the seven keys has a valid value among the accepted pairs of the body. -/
def Complete (c : Checks D) (body : List UInt8) : Prop :=
  ∀ f : Field, ∃ value, (f.key, value) ∈ accepted (strtok 38 body) ∧ f.valid c value = true

theorem complete_iff (body : List UInt8) :
    Complete c body ↔ ∀ f, f ∈ (entries c (strtok 38 body)).map Prod.fst := by
  constructor
  · intro h f
    obtain ⟨value, hmem, hvalid⟩ := h f
    exact List.mem_map.mpr ⟨(f, value), mem_entries.mpr ⟨hmem, hvalid⟩, rfl⟩
  · intro h f
    obtain ⟨⟨g, value⟩, hmem, rfl⟩ := List.mem_map.mp (h f)
    exact ⟨value, mem_entries.mp hmem⟩

theorem nodup_iff_length {l : List Field} (h : ∀ f, f ∈ l) : l.Nodup ↔ l.length = 7 := by
  have hsub : Field.all.Subperm l := List.subperm_of_subset all_nodup fun f _ => h f
  constructor
  · intro hl
    have hsub' : l.Subperm Field.all := List.subperm_of_subset hl fun f _ => mem_all f
    have hle := hsub.length_le
    have hle' := hsub'.length_le
    have hall : Field.all.length = 7 := rfl
    omega
  · intro hlen
    have hperm := hsub.perm_of_length_le (by rw [hlen]; rfl)
    exact hperm.nodup_iff.mp all_nodup

theorem parseKeyValue_string {pair key value : List UInt8} {keyLen valueLen : ℕ}
    (h : parseKeyValue pair keyLen valueLen = some (key, value)) : (0 : UInt8) ∉ value := by
  unfold parseKeyValue at h
  split at h
  · cases h
  · split at h
    · cases h
    · dsimp only at h
      split at h
      · cases h
      · cases h
        exact zero_notMem_cstr _

theorem entries_string {tokens : List (List UInt8)} {e : Field × List UInt8}
    (he : e ∈ entries c tokens) : (0 : UInt8) ∉ e.2 := by
  obtain ⟨hmem, _⟩ := mem_entries.mp he
  obtain ⟨pair, _, hpair⟩ := List.mem_filterMap.mp hmem
  exact parseKeyValue_string hpair

/-! ### What is accepted -/

section Request
variable (c : Checks D) (json : JsonC D J) (now : ℤ) (h : History D)

/-- A request whose text starts with the method and the path, with a form behind the first
blank line. -/
structure FormPost (data body : List UInt8) : Prop where
  start : postHeartbeat.isPrefixOf (cstr data) = true
  split : strstr blankLine (cstr data) = some (blankLine ++ body)
  form : body.head? ≠ some 123

def Stores (r : Handled D) (d : HeartbeatData D) : Prop :=
  (∃ m ∈ r.sent, (text "HTTP/1.1 200 OK").isPrefixOf m = true) ∧ r.added = some d ∧
    r.history.nodes.head? = some ⟨d, now⟩

/-- A heartbeat is accepted exactly when it is complete, and then the record holds a valid
value of the body in each field. -/
def AcceptsComplete (body : List UInt8) (r : Handled D) : Prop :=
  ((∃ d, Stores now r d) ↔ Complete c body) ∧
    ∀ d, Stores now r d → ∀ f : Field, ∃ value,
      (f.key, value) ∈ accepted (strtok 38 body) ∧ f.valid c value = true ∧ f.holds c d value

/-- Either every key has one valid value and the addresses fit, or a key has none and the
number of entries is not seven; and the text of a history request plays no part. -/
def Unambiguous (data body : List UInt8) : Prop :=
  let given := entries c (strtok 38 body)
  (Complete c body ∧ strstr getHistory (cstr data) = none ∧ (given.map Prod.fst).Nodup ∧
      ∀ e ∈ given, e.1.isIp = true → e.2.length < maxIpLen) ∨
    ¬ Complete c body ∧ (strstr getHistory (cstr data) ≠ none ∨ given.length ≠ 7)

variable {c}

theorem FormPost.head {data body : List UInt8} (hpost : FormPost data body) :
    data ≠ [] ∧ (cstr data).head? = some 80 := by
  obtain ⟨rest, hrest⟩ := List.isPrefixOf_iff_prefix.mp hpost.start
  have hhead : (cstr data).head? = some 80 := by
    rw [← hrest]
    rfl
  refine ⟨?_, hhead⟩
  rintro rfl
  cases hhead

/-- The text of a history request, wherever it stands, is answered first. -/
theorem handleClient_history {data body : List UInt8} (hpost : FormPost data body)
    (hget : strstr getHistory (cstr data) ≠ none) :
    (handleClient c json true now h data).added = none := by
  obtain ⟨hne, hhead⟩ := hpost.head
  simp only [handleClient, hne, hhead, if_false]
  rw [if_neg (by decide), if_pos (Option.isSome_iff_ne_none.mpr hget)]
  split <;> rfl

theorem handleClient_form {data body : List UInt8} (hpost : FormPost data body)
    (hget : strstr getHistory (cstr data) = none) :
    handleClient c json true now h data =
      if (entries c (strtok 38 body)).length = 7 then
        accept true now h (storeAll c (entries c (strtok 38 body)) (noData c)) okResponse
      else answer h invalidDataResponse := by
  obtain ⟨hne, hhead⟩ := hpost.head
  have hdrop : (blankLine ++ body).drop 4 = body := List.drop_left' (by decide)
  simp only [handleClient, hne, hhead, hget, strstr_of_prefix hpost.start, if_false]
  rw [if_neg (by decide), if_neg (by decide), if_pos Option.isSome_some]
  simp only [handlePost, hpost.split, hdrop, hpost.form, if_false, formData, formFields_eq,
    Nat.zero_add]
  by_cases hlen : (entries c (strtok 38 body)).length = 7
  · simp only [hlen, if_true]
  · simp only [hlen, if_false]

theorem okResponse_status : (text "HTTP/1.1 200 OK").isPrefixOf okResponse = true := by
  have hstatus : text "HTTP/1.1 200 OK" = text "HTTP/1.1 " ++ text "200 OK" := by
    rw [text_ofList, text_ofList, text_ofList]
    rfl
  rw [okResponse, plainResponse, hstatus]
  simp only [text_append, List.append_assoc, List.isPrefixOf_iff_prefix]
  exact ⟨_, List.append_assoc ..⟩

theorem addToHistory_head (h : History D) (d : HeartbeatData D) (now : ℤ) :
    (addToHistory h d true now).nodes.head? = some ⟨d, now⟩ := by
  unfold addToHistory
  rw [if_neg (by decide)]
  dsimp only
  split
  · rename_i hfull
    cases hnodes : h.nodes with
    | nil => simp [hnodes] at hfull
    | cons node nodes => rfl
  · rfl

theorem stores_iff {data body : List UInt8} (hpost : FormPost data body) (d : HeartbeatData D) :
    Stores now (handleClient c json true now h data) d ↔
      strstr getHistory (cstr data) = none ∧ (entries c (strtok 38 body)).length = 7 ∧
        d = storeAll c (entries c (strtok 38 body)) (noData c) := by
  by_cases hget : strstr getHistory (cstr data) = none
  · rw [handleClient_form json now h hpost hget]
    by_cases hlen : (entries c (strtok 38 body)).length = 7
    · rw [if_pos hlen]
      constructor
      · intro hstores
        exact ⟨hget, hlen, (Option.some.inj hstores.2.1).symm⟩
      · rintro ⟨_, _, rfl⟩
        refine ⟨⟨okResponse, List.mem_singleton_self _, okResponse_status⟩, rfl, ?_⟩
        exact addToHistory_head h _ now
    · rw [if_neg hlen]
      constructor
      · intro hstores
        cases hstores.2.1
      · intro hd
        exact absurd hd.2.1 hlen
  · constructor
    · intro hstores
      have hnone := handleClient_history (c := c) json now h hpost hget
      have hsome := hstores.2.1
      rw [hnone] at hsome
      cases hsome
    · intro hd
      exact absurd hd.1 hget

theorem entry_unique {tokens : List (List UInt8)}
    (hnodup : ((entries c tokens).map Prod.fst).Nodup) {f : Field} {v v' : List UInt8}
    (hv : (f, v) ∈ entries c tokens) (hv' : (f, v') ∈ entries c tokens) : v = v' :=
  congrArg Prod.snd (List.inj_on_of_nodup_map hnodup hv hv' rfl)

theorem holds_ip {f : Field} (hf : f.isIp = true) {d : HeartbeatData D} {v v' : List UInt8}
    (hv : f.holds c d v) (hv' : f.holds c d v') : v = v' := by
  cases f with
  | localIp => exact hv.symm.trans hv'
  | publicIp => exact hv.symm.trans hv'
  | _ => cases hf

theorem cut_of_short {f : Field} {value : List UInt8}
    (h : f.isIp = true → value.length < maxIpLen) : f.cut value = value := by
  unfold Field.cut
  split
  · rename_i hf
    have hlen := h hf
    exact List.take_of_length_le (by omega)
  · rfl

theorem record_given_iff {body : List UInt8} (hcomplete : Complete c body)
    (hnodup : ((entries c (strtok 38 body)).map Prod.fst).Nodup) :
    (∀ f : Field, ∃ value, (f.key, value) ∈ accepted (strtok 38 body) ∧
        f.valid c value = true ∧
        f.holds c (storeAll c (entries c (strtok 38 body)) (noData c)) value) ↔
      ∀ e ∈ entries c (strtok 38 body), e.1.isIp = true → e.2.length < maxIpLen := by
  have hlast : ∀ f : Field, ∃ value, (f, value) ∈ entries c (strtok 38 body) ∧
      f.holds c (storeAll c (entries c (strtok 38 body)) (noData c)) (f.cut value) := by
    intro f
    have hstrings : ∀ e ∈ entries c (strtok 38 body), (0 : UInt8) ∉ e.2 :=
      fun e he => entries_string he
    rcases storeAll_holds (c := c) hstrings noData_padded f with hheld | ⟨habsent, _⟩
    · exact hheld
    · obtain ⟨value, hgiven⟩ := hcomplete f
      exact absurd (mem_entries.mpr hgiven) (habsent value)
  constructor
  · rintro hall ⟨f, v⟩ he hf
    obtain ⟨v₁, hmem₁, hvalid₁, hholds₁⟩ := hall f
    obtain ⟨v₂, he₂, hholds₂⟩ := hlast f
    obtain rfl := entry_unique hnodup he (mem_entries.mpr ⟨hmem₁, hvalid₁⟩)
    obtain rfl := entry_unique hnodup he he₂
    have heq : v = f.cut v := holds_ip hf hholds₁ hholds₂
    have hlen := congrArg List.length heq
    rw [Field.cut, if_pos hf, List.length_take] at hlen
    show v.length < maxIpLen
    unfold maxIpLen at hlen ⊢
    omega
  · intro hshort f
    obtain ⟨value, he, hholds⟩ := hlast f
    obtain ⟨hmem, hvalid⟩ := mem_entries.mp he
    rw [cut_of_short (hshort _ he)] at hholds
    exact ⟨value, hmem, hvalid, hholds⟩

/-- A form heartbeat is dealt with as its body deserves exactly when the body is unambiguous. -/
theorem form_accepted_iff {data body : List UInt8} (hpost : FormPost data body) :
    AcceptsComplete c now body (handleClient c json true now h data) ↔
      Unambiguous c data body := by
  have hstores := stores_iff (c := c) json now h hpost
  unfold AcceptsComplete Unambiguous
  simp only [hstores]
  by_cases hget : strstr getHistory (cstr data) = none
  · by_cases hcomplete : Complete c body
    · have hlength := nodup_iff_length ((complete_iff body).mp hcomplete)
      rw [List.length_map] at hlength
      simp only [hget, hcomplete, true_and, iff_true, not_true_eq_false, false_and, or_false]
      constructor
      · rintro ⟨⟨d, hlen, rfl⟩, hfields⟩
        have hnodup := hlength.mpr hlen
        exact ⟨hnodup, (record_given_iff hcomplete hnodup).mp (hfields _ ⟨hlen, rfl⟩)⟩
      · rintro ⟨hnodup, hshort⟩
        refine ⟨⟨_, hlength.mp hnodup, rfl⟩, ?_⟩
        rintro d ⟨_, rfl⟩
        exact (record_given_iff hcomplete hnodup).mpr hshort
    · simp only [hget, hcomplete, true_and, iff_false, false_and, not_true_eq_false, ne_eq,
        false_or, not_false_eq_true]
      constructor
      · rintro ⟨hnone, _⟩ hlen
        exact hnone ⟨_, hlen, rfl⟩
      · intro hlen
        exact ⟨fun ⟨_, hd, _⟩ => hlen hd, fun _ hd => absurd hd.1 hlen⟩
  · by_cases hcomplete : Complete c body
    · simp [hget, hcomplete]
    · simp [hget, hcomplete]

end Request

/-! ### Two bodies -/

/-- `atof` on a string of digits. -/
def wholeNumber (value : List UInt8) : ℤ :=
  value.foldl (fun n b => n * 10 + (b.toNat - 48)) 0

def oneAddress : Checks ℤ :=
  ⟨fun ip => decide (ip = text "1.1.1.1"), fun v => decide (0 ≤ v ∧ v ≤ 100),
    fun v => decide (0 ≤ v), 0, wholeNumber⟩

def noJson : JsonC ℤ Unit := ⟨fun _ => none, fun _ _ => none, fun _ => none, fun _ => 0, fun _ => none⟩

def noRecords : History ℤ := ⟨[], 0⟩

def request (body : List UInt8) : List UInt8 := text "POST /api/heartbeat\r\n\r\n" ++ body

def formPair (f : Field) (value : List UInt8) : List UInt8 := f.key ++ 61 :: value ++ [38]

def sevenTimes : List UInt8 :=
  [49, 50, 51, 52, 53, 54, 55].flatMap fun digit => formPair .latency [digit]

def latencyTwice : List UInt8 :=
  formPair .localIp (text "1.1.1.1") ++ formPair .publicIp (text "1.1.1.1") ++
    formPair .cpuUsage [49] ++ formPair .memoryUsage [50] ++ formPair .diskUsage [51] ++
    formPair .availability [52] ++ formPair .latency [53] ++ formPair .latency [54]

theorem blankLine_eq : blankLine = [13, 10, 13, 10] := text_ofList _

theorem postHeartbeat_eq : postHeartbeat =
    [80, 79, 83, 84, 32, 47, 97, 112, 105, 47, 104, 101, 97, 114, 116, 98, 101, 97, 116] :=
  text_ofList _

theorem request_eq (body : List UInt8) : request body = postHeartbeat ++ (blankLine ++ body) := by
  rw [request, postHeartbeat_eq, blankLine_eq, text_ofList]
  rfl

theorem cstr_request {body : List UInt8} (h0 : (0 : UInt8) ∉ body) :
    cstr (request body) = request body := by
  apply cstr_eq_self
  rw [request_eq, postHeartbeat_eq, blankLine_eq]
  simp [h0]

theorem request_post {body : List UInt8} (h0 : (0 : UInt8) ∉ body) (hform : body.head? ≠ some 123) :
    FormPost (request body) body := by
  have hclear : Clear blankLine postHeartbeat := by
    rw [blankLine_eq, postHeartbeat_eq]
    exact clear_of_head (by decide)
  constructor
  · rw [cstr_request h0, request_eq]
    exact List.isPrefixOf_iff_prefix.mpr (List.prefix_append _ _)
  · rw [cstr_request h0, request_eq]
    exact strstr_found hclear body
  · exact hform

theorem formPair_latency (digit : UInt8) :
    formPair .latency [digit] = [108, 97, 116, 101, 110, 99, 121, 61, digit, 38] := by
  rw [formPair, Field.key, text_ofList]
  rfl

theorem sevenTimes_eq : sevenTimes = [49, 50, 51, 52, 53, 54, 55].flatMap fun digit =>
    [108, 97, 116, 101, 110, 99, 121, 61, digit, 38] := by
  simp only [sevenTimes, formPair_latency]

theorem sevenTimes_zero : (0 : UInt8) ∉ sevenTimes := by
  rw [sevenTimes_eq]
  decide

theorem sevenTimes_post : FormPost (request sevenTimes) sevenTimes := by
  apply request_post sevenTimes_zero
  rw [sevenTimes_eq]
  decide

theorem sevenTimes_get : strstr getHistory (cstr (request sevenTimes)) = none := by
  rw [cstr_request sevenTimes_zero, request_eq, postHeartbeat_eq, blankLine_eq, sevenTimes_eq,
    getHistory, text_ofList]
  decide

theorem latencyTwice_post : FormPost (request latencyTwice) latencyTwice :=
  request_post (by decide +kernel) (by decide +kernel)

theorem sevenTimes_entries : entries oneAddress (strtok 38 sevenTimes) =
    [49, 50, 51, 52, 53, 54, 55].map fun digit => (.latency, [digit]) := by
  rw [sevenTimes_eq]
  decide +kernel

theorem latencyTwice_entries : entries oneAddress (strtok 38 latencyTwice) =
    [(.localIp, text "1.1.1.1"), (.publicIp, text "1.1.1.1"), (.cpuUsage, [49]),
      (.memoryUsage, [50]), (.diskUsage, [51]), (.availability, [52]), (.latency, [53]),
      (.latency, [54])] := by
  decide +kernel

theorem form_accepted_iff_sevenTimes :
    AcceptsComplete oneAddress 50 sevenTimes
        (handleClient oneAddress noJson true 50 noRecords (request sevenTimes)) ↔
      Unambiguous oneAddress (request sevenTimes) sevenTimes :=
  form_accepted_iff noJson 50 noRecords sevenTimes_post

/-- Seven values of one key are accepted, and a complete body with an eighth value is not. -/
theorem form_miscounted :
    Stores 50 (handleClient oneAddress noJson true 50 noRecords (request sevenTimes))
        { noData oneAddress with latency := 7 } ∧
      (handleClient oneAddress noJson true 50 noRecords (request latencyTwice)).sent =
        [invalidDataResponse] ∧
      (¬ AcceptsComplete oneAddress 50 sevenTimes
        (handleClient oneAddress noJson true 50 noRecords (request sevenTimes))) ∧
      ¬ AcceptsComplete oneAddress 50 latencyTwice
        (handleClient oneAddress noJson true 50 noRecords (request latencyTwice)) := by
  have htwice : strstr getHistory (cstr (request latencyTwice)) = none := by decide +kernel
  have hstores := stores_iff (c := oneAddress) noJson 50 noRecords
    sevenTimes_post { noData oneAddress with latency := 7 }
  rw [sevenTimes_entries] at hstores
  have hstored := hstores.mpr ⟨sevenTimes_get, rfl, by decide⟩
  have hhandled := handleClient_form (c := oneAddress) noJson 50 noRecords
    latencyTwice_post htwice
  rw [latencyTwice_entries, if_neg (by decide)] at hhandled
  refine ⟨hstored, by rw [hhandled]; rfl, ?_, ?_⟩
  · intro haccepts
    have hlocal := (complete_iff sevenTimes).mp (haccepts.1.mp ⟨_, hstored⟩) .localIp
    rw [sevenTimes_entries] at hlocal
    exact absurd hlocal (by decide)
  · intro haccepts
    have hcomplete : Complete oneAddress latencyTwice := by
      apply (complete_iff latencyTwice).mpr
      rw [latencyTwice_entries]
      intro f
      cases f <;> decide
    obtain ⟨d, _, hadded, _⟩ := haccepts.1.mpr hcomplete
    rw [hhandled] at hadded
    cases hadded

end CSimples.HeartbeatServer
