import CSimples.Lib.CString

/-!
# A field of a JSON answer (sysinfo.c:36-77)

`extract_json_field` looks for `"field":` as a substring and copies what follows:
a string up to its closing quote, anything else up to white space, a comma or a
closing brace. In a flat object whose strings contain no quotes the substring
occurs at the member of that name only.
-/

namespace CSimples.JsonField
open CString

def isSpace (b : UInt8) : Bool := b = 32 ∨ b = 9 ∨ b = 10 ∨ b = 13

/-- A byte of a value without quotes, for the loop that looks for its end. -/
def inToken (b : UInt8) : Bool := ¬ (isSpace b ∨ b = 44 ∨ b = 125)

/-- `snprintf(field_pattern, 128, "\"%s\":", field)`. -/
def fieldPattern (field : List UInt8) : List UInt8 := (34 :: (field ++ [34, 58])).take 127

/-- `strncpy(buffer, start, len); buffer[len] = '\0'` with `len` cut to
`bufsize - 1`. -/
def store (buffer start : List UInt8) (len bufsize : ℕ) : List UInt8 :=
  let cut := if bufsize ≤ len then bufsize - 1 else len
  (strncpy buffer start cut).set cut 0

/-- `snprintf(buffer, bufsize, "Not available")`. -/
def notAvailable (buffer : List UInt8) (bufsize : ℕ) : List UInt8 :=
  let cut := (text "Not available").take (bufsize - 1)
  cut ++ 0 :: buffer.drop (cut.length + 1)

/-- `json` and `field` are the strings without their terminators, `buffer` the
bytes before the call; `bufsize` is positive. -/
def extractJsonField (json field buffer : List UInt8) (bufsize : ℕ) : List UInt8 :=
  match strstr (fieldPattern field) json with
  | none => notAvailable buffer bufsize
  | some found =>
    let start := (found.drop (fieldPattern field).length).dropWhile isSpace
    if start.head? = some 34 then
      let rest := start.drop 1
      if 34 ∈ rest then store buffer rest (rest.takeWhile fun b => decide (b ≠ 34)).length bufsize
      else notAvailable buffer bufsize
    else store buffer start (start.takeWhile inToken).length bufsize

/-! ### Flat objects -/

def isAlpha (b : UInt8) : Bool := 65 ≤ b ∧ b ≤ 90 ∨ 97 ≤ b ∧ b ≤ 122

/-- The bytes of numbers and of `true`, `false` and `null`. -/
def isTokenByte (b : UInt8) : Bool := isAlpha b ∨ 48 ≤ b ∧ b ≤ 57 ∨ b = 43 ∨ b = 45 ∨ b = 46

inductive Value where
  | string (content : List UInt8) (plain : 34 ∉ content ∧ 92 ∉ content ∧ 0 ∉ content)
  | token (bytes : List UInt8) (plain : bytes ≠ [] ∧ ∀ b ∈ bytes, isTokenByte b = true)

def Value.text : Value → List UInt8
  | .string content _ => 34 :: (content ++ [34])
  | .token bytes _ => bytes

def Value.content : Value → List UInt8
  | .string content _ => content
  | .token bytes _ => bytes

abbrev Space := {bs : List UInt8 // ∀ b ∈ bs, isSpace b = true}

abbrev Alphabetic := {bs : List UInt8 // ∀ b ∈ bs, isAlpha b = true}

/-- The field names that the pattern has room for. -/
structure FieldName where
  bytes : Alphabetic
  nonempty : bytes.val ≠ []
  length_le : bytes.val.length ≤ 124

structure Member where
  before : Space
  key : Alphabetic
  afterColon : Space
  value : Value
  afterValue : Space

def Member.rest (m : Member) : List UInt8 := m.afterColon.val ++ (m.value.text ++ m.afterValue.val)

def Member.text (m : Member) : List UInt8 :=
  m.before.val ++ 34 :: (m.key.val ++ 34 :: 58 :: m.rest)

structure FlatObject where
  lead : Space
  /-- The white space of an object without members. -/
  inner : Space
  members : List Member
  trail : Space
  distinct : (members.map Member.key).Nodup

/-- The further members and what closes the object. -/
def further (members : List Member) (trail : List UInt8) : List UInt8 :=
  (members.flatMap fun m => 44 :: m.text) ++ 125 :: trail

def FlatObject.text (o : FlatObject) : List UInt8 :=
  o.lead.val ++ 123 :: match o.members with
    | [] => o.inner.val ++ 125 :: o.trail.val
    | m :: ms => m.text ++ further ms o.trail.val

/-! ### The search -/

variable {name : FieldName} {rest : List UInt8} {m : Member}

theorem notMem_space {b : UInt8} (hb : isSpace b = false) (s : Space) : b ∉ s.val := by
  intro h
  rw [s.property b h] at hb
  cases hb

theorem notMem_alpha {b : UInt8} (hb : isAlpha b = false) (s : Alphabetic) : b ∉ s.val := by
  intro h
  rw [s.property b h] at hb
  cases hb

theorem fieldPattern_name (name : FieldName) :
    fieldPattern name.bytes.val = 34 :: (name.bytes.val ++ [34, 58]) := by
  apply List.take_of_length_le
  have hle := name.length_le
  simp only [List.length_cons, List.length_append, List.length_nil]
  omega

/-- What follows a value in an object is one of the bytes at which the copied value
ends: no colon, and nothing that continues a name. -/
def Follows (rest : List UInt8) : Prop := ∀ b ∈ rest.head?, inToken b = false

theorem inToken_false {b : UInt8} (h : inToken b = false) : b ≠ 58 ∧ isAlpha b = false := by
  simp only [inToken, isSpace, decide_eq_false_iff_not, not_not, decide_eq_true_eq] at h
  rcases h with (rfl | rfl | rfl | rfl) | rfl | rfl <;> decide

theorem isTokenByte_true {b : UInt8} (h : isTokenByte b = true) :
    inToken b = true ∧ isSpace b = false ∧ b ≠ 34 ∧ b ≠ 0 := by
  have hspace : isSpace b = false := by
    by_contra hs
    simp only [isSpace, Bool.not_eq_false, decide_eq_true_eq] at hs
    rcases hs with rfl | rfl | rfl | rfl <;> exact absurd h (by decide)
  refine ⟨decide_eq_true ?_, hspace, ?_, ?_⟩
  · rintro (hs | rfl | rfl)
    · rw [hspace] at hs
      cases hs
    · exact absurd h (by decide)
    · exact absurd h (by decide)
  · rintro rfl
    exact absurd h (by decide)
  · rintro rfl
    exact absurd h (by decide)

theorem search_plain {bs : List UInt8} (h : 34 ∉ bs) (rest : List UInt8) :
    strstr (fieldPattern name.bytes.val) (bs ++ rest) =
      strstr (fieldPattern name.bytes.val) rest := by
  rw [fieldPattern_name]
  exact strstr_of_head h rest

/-- There is no match at the closing quote of another text, or of one that no colon
follows, and none at its opening quote. -/
theorem search_quoted {c : List UInt8} (hc : 34 ∉ c)
    (hne : c = name.bytes.val → ∀ b ∈ rest.head?, b ≠ 58)
    (hrest : ∀ b ∈ rest.head?, isAlpha b = false) :
    strstr (fieldPattern name.bytes.val) (34 :: (c ++ 34 :: rest)) =
      strstr (fieldPattern name.bytes.val) rest := by
  have hopen : ¬ fieldPattern name.bytes.val <+: 34 :: (c ++ 34 :: rest) := by
    intro h
    rw [fieldPattern_name] at h
    obtain ⟨heq, tail, rfl⟩ := (delimited_prefix_iff (notMem_alpha (by decide) name.bytes) hc).mp
      (List.cons_prefix_cons.mp h).2
    exact hne heq.symm 58 rfl rfl
  have hclose : ¬ fieldPattern name.bytes.val <+: 34 :: rest := by
    intro h
    rw [fieldPattern_name] at h
    obtain ⟨tail, rfl⟩ := (List.cons_prefix_cons.mp h).2
    obtain ⟨f, field, hf⟩ := List.exists_cons_of_ne_nil name.nonempty
    have hletter := hrest f (by rw [hf]; rfl)
    rw [name.bytes.property f (by rw [hf]; exact List.mem_cons_self)] at hletter
    cases hletter
  rw [strstr_cons hopen, search_plain hc, strstr_cons hclose]

theorem search_value (v : Value) (hrest : Follows rest) :
    strstr (fieldPattern name.bytes.val) (v.text ++ rest) =
      strstr (fieldPattern name.bytes.val) rest := by
  cases v with
  | string content plain =>
    have htext : (Value.string content plain).text ++ rest = 34 :: (content ++ 34 :: rest) := by
      simp [Value.text]
    rw [htext, search_quoted plain.1 (fun _ b hb => (inToken_false (hrest b hb)).1)
      fun b hb => (inToken_false (hrest b hb)).2]
  | token bytes plain =>
    exact search_plain (fun h => (isTokenByte_true (plain.2 34 h)).2.2.1 rfl) rest

theorem follows_space (s : Space) (hrest : Follows rest) : Follows (s.val ++ rest) := by
  obtain ⟨bs, hbs⟩ := s
  cases bs with
  | nil => exact hrest
  | cons b bs =>
    intro c hc
    obtain rfl : b = c := by simpa using hc
    have hb := hbs b List.mem_cons_self
    simp only [isSpace, decide_eq_true_eq] at hb
    rcases hb with rfl | rfl | rfl | rfl <;> decide

theorem Member.text_append (m : Member) (rest : List UInt8) :
    m.text ++ rest = m.before.val ++ 34 :: (m.key.val ++
      34 :: (58 :: m.afterColon.val ++ (m.value.text ++ (m.afterValue.val ++ rest)))) := by
  simp [Member.text, Member.rest]

theorem search_member (hkey : m.key ≠ name.bytes) (hrest : Follows rest) :
    strstr (fieldPattern name.bytes.val) (m.text ++ rest) =
      strstr (fieldPattern name.bytes.val) rest := by
  have hcolon : (34 : UInt8) ∉ 58 :: m.afterColon.val := by
    simp only [List.mem_cons, not_or]
    exact ⟨by decide, notMem_space (by decide) _⟩
  have hletter : ∀ b ∈ (58 :: m.afterColon.val ++
      (m.value.text ++ (m.afterValue.val ++ rest))).head?, isAlpha b = false := by
    intro b hb
    obtain rfl : 58 = b := by simpa using hb
    rfl
  rw [m.text_append, search_plain (notMem_space (by decide) _),
    search_quoted (notMem_alpha (by decide) _) (fun h => absurd (Subtype.ext h) hkey) hletter,
    search_plain hcolon, search_value _ (follows_space _ hrest),
    search_plain (notMem_space (by decide) _)]

theorem search_found (hkey : m.key = name.bytes) (rest : List UInt8) :
    strstr (fieldPattern name.bytes.val) (m.text ++ rest) =
      some (fieldPattern name.bytes.val ++
        (m.afterColon.val ++ (m.value.text ++ (m.afterValue.val ++ rest)))) := by
  rw [m.text_append, search_plain (notMem_space (by decide) _), hkey]
  have hpattern : 34 :: (name.bytes.val ++ 34 :: (58 :: m.afterColon.val ++
      (m.value.text ++ (m.afterValue.val ++ rest)))) = fieldPattern name.bytes.val ++
        (m.afterColon.val ++ (m.value.text ++ (m.afterValue.val ++ rest))) := by
    simp [fieldPattern_name]
  rw [hpattern]
  exact strstr_of_prefix (List.isPrefixOf_iff_prefix.mpr (List.prefix_append _ _))

/-! ### The members of an object -/

theorem follows_further (ms : List Member) (trail : List UInt8) : Follows (further ms trail) := by
  cases ms with
  | nil =>
    intro b hb
    obtain rfl : 125 = b := by simpa [further] using hb
    decide
  | cons m ms =>
    intro b hb
    obtain rfl : 44 = b := by simpa [further] using hb
    decide

theorem further_cons (m : Member) (ms : List Member) (trail : List UInt8) :
    further (m :: ms) trail = [44] ++ (m.text ++ further ms trail) := by
  simp [further]

theorem search_none (trail : Space) (pre : List UInt8) (hpre : 34 ∉ pre) :
    strstr (fieldPattern name.bytes.val) (pre ++ 125 :: trail.val) = none := by
  have hplain : (34 : UInt8) ∉ pre ++ 125 :: trail.val := by
    simp only [List.mem_append, List.mem_cons, not_or]
    exact ⟨hpre, by decide, notMem_space (by decide) _⟩
  rw [← List.append_nil (pre ++ _), search_plain hplain, fieldPattern_name]
  rfl

/-- Behind members of other names the search goes on. -/
theorem search_further {ms : List Member} (h : ∀ m ∈ ms, m.key ≠ name.bytes)
    (more : List Member) (trail : List UInt8) :
    strstr (fieldPattern name.bytes.val) (further (ms ++ more) trail) =
      strstr (fieldPattern name.bytes.val) (further more trail) := by
  induction ms with
  | nil => rfl
  | cons m ms ih =>
    obtain ⟨hm, hms⟩ := List.forall_mem_cons.mp h
    rw [List.cons_append, further_cons, search_plain (by decide),
      search_member hm (follows_further _ _), ih hms]

/-- The members of an object with a comma in front of each are searched as those
behind the opening brace. -/
theorem search_text (o : FlatObject) :
    strstr (fieldPattern name.bytes.val) o.text =
      strstr (fieldPattern name.bytes.val) (further o.members o.trail.val) := by
  have hopen : (34 : UInt8) ∉ o.lead.val ++ [123] := by
    simp only [List.mem_append, List.mem_singleton, not_or]
    exact ⟨notMem_space (by decide) _, by decide⟩
  have htext : o.text = (o.lead.val ++ [123]) ++ match o.members with
      | [] => o.inner.val ++ 125 :: o.trail.val
      | m :: ms => m.text ++ further ms o.trail.val := by
    simp [FlatObject.text]
  rw [htext, search_plain hopen]
  cases hms : o.members with
  | nil =>
    show strstr _ (o.inner.val ++ 125 :: o.trail.val) = strstr _ ([] ++ 125 :: o.trail.val)
    rw [search_none _ _ (notMem_space (by decide) _), search_none _ _ List.not_mem_nil]
  | cons m ms =>
    rw [further_cons, search_plain (by decide : (34 : UInt8) ∉ [44])]

theorem search_present {o : FlatObject} (hm : m ∈ o.members) (hkey : m.key = name.bytes) :
    ∃ rest, Follows rest ∧ strstr (fieldPattern name.bytes.val) o.text =
      some (fieldPattern name.bytes.val ++
        (m.afterColon.val ++ (m.value.text ++ (m.afterValue.val ++ rest)))) := by
  obtain ⟨ms, more, hmembers⟩ := List.append_of_mem hm
  have hother : ∀ m' ∈ ms, m'.key ≠ name.bytes := by
    intro m' hm' heq
    have hnodup := o.distinct
    rw [hmembers, List.map_append, List.nodup_append] at hnodup
    exact hnodup.2.2 _ (List.mem_map_of_mem hm') _ (List.mem_map_of_mem List.mem_cons_self)
      (heq.trans hkey.symm)
  refine ⟨further more o.trail.val, follows_further _ _, ?_⟩
  rw [search_text, hmembers, search_further hother, further_cons, search_plain (by decide),
    search_found hkey]

theorem search_absent {o : FlatObject} (h : ∀ m ∈ o.members, m.key ≠ name.bytes) :
    strstr (fieldPattern name.bytes.val) o.text = none := by
  rw [search_text, ← List.append_nil o.members, search_further h]
  exact search_none _ [] List.not_mem_nil

/-! ### What is copied -/

/-- The text in the buffer, cut to `bufsize - 1` bytes and terminated. -/
def Holds (buffer text : List UInt8) (bufsize : ℕ) : Prop :=
  ∃ tail, buffer = text.take (bufsize - 1) ++ 0 :: tail

theorem store_holds {buffer content : List UInt8} {bufsize : ℕ} (hcontent : 0 ∉ content)
    (hpos : 0 < bufsize) (hbuffer : bufsize ≤ buffer.length) (after : List UInt8) :
    Holds (store buffer (content ++ after) content.length bufsize) content bufsize := by
  obtain ⟨cut, hcut⟩ : ∃ cut, cut = if bufsize ≤ content.length then bufsize - 1
      else content.length := ⟨_, rfl⟩
  have hle : cut ≤ content.length := by split_ifs at hcut <;> omega
  have hlt : cut < buffer.length := by split_ifs at hcut <;> omega
  have htake : content.take cut = content.take (bufsize - 1) := by
    split_ifs at hcut with h
    · rw [hcut]
    · rw [hcut, List.take_length, List.take_of_length_le (by omega)]
  have hcopied : (cstr (content ++ after)).take cut = content.take cut := by
    rw [cstr_append hcontent, List.take_append_of_le_length hle]
  have hroom : cut - (cstr (content ++ after)).length = 0 := by
    rw [cstr_append hcontent, List.length_append]
    omega
  have hdrop : buffer.drop cut = buffer[cut] :: buffer.drop (cut + 1) :=
    List.drop_eq_getElem_cons hlt
  have hlen : (content.take cut).length = cut := by rw [List.length_take, Nat.min_eq_left hle]
  refine ⟨buffer.drop (cut + 1), ?_⟩
  rw [store, ← hcut, strncpy, hcopied, hroom, List.replicate_zero, List.append_nil, hdrop,
    List.set_append_right _ _ (by omega), hlen, Nat.sub_self, List.set_cons_zero, htake]

theorem notAvailable_holds (buffer : List UInt8) (bufsize : ℕ) :
    Holds (notAvailable buffer bufsize) (CString.text "Not available") bufsize := ⟨_, rfl⟩

theorem dropWhile_space (s : Space) {b : UInt8} (hb : isSpace b = false) (rest : List UInt8) :
    (s.val ++ b :: rest).dropWhile isSpace = b :: rest := by
  rw [List.dropWhile_append_of_pos s.property, List.dropWhile_cons_of_neg]
  rw [hb]
  exact Bool.false_ne_true

/-- In every flat object the value of the field is found, and only a missing one is
reported as not available. -/
theorem extractJsonField_object (o : FlatObject) (name : FieldName) {buffer : List UInt8}
    {bufsize : ℕ} (hpos : 0 < bufsize) (hbuffer : bufsize ≤ buffer.length) :
    (∀ m ∈ o.members, m.key = name.bytes →
      Holds (extractJsonField o.text name.bytes.val buffer bufsize) m.value.content bufsize) ∧
    ((∀ m ∈ o.members, m.key ≠ name.bytes) →
      Holds (extractJsonField o.text name.bytes.val buffer bufsize)
        (CString.text "Not available") bufsize) := by
  constructor
  · intro m hm hkey
    obtain ⟨rest, hrest, hfound⟩ := search_present hm hkey
    rw [extractJsonField, hfound]
    simp only [List.drop_left]
    cases hv : m.value with
    | string content plain =>
      have htext : (Value.string content plain).text ++ (m.afterValue.val ++ rest) =
          34 :: (content ++ 34 :: (m.afterValue.val ++ rest)) := by simp [Value.text]
      have hend : (content ++ 34 :: (m.afterValue.val ++ rest)).takeWhile
          (fun b => decide (b ≠ 34)) = content := by
        rw [List.takeWhile_append_of_pos]
        · simp
        · exact fun b hb => decide_eq_true (ne_of_mem_of_not_mem hb plain.1)
      rw [htext, dropWhile_space _ (by decide)]
      simp only [List.head?_cons, List.drop_succ_cons, List.drop_zero, if_true, hend]
      rw [if_pos (by simp)]
      exact store_holds plain.2.2 hpos hbuffer _
    | token bytes plain =>
      have hfollows := follows_space m.afterValue hrest
      generalize m.afterValue.val ++ rest = after at hfollows
      have hstop : after.takeWhile inToken = [] := by
        cases after with
        | nil => rfl
        | cons a after => exact List.takeWhile_cons_of_neg (by rw [hfollows a rfl]; decide)
      have hend : (bytes ++ after).takeWhile inToken = bytes := by
        rw [List.takeWhile_append_of_pos fun b hb => (isTokenByte_true (plain.2 b hb)).1, hstop,
          List.append_nil]
      have hzero : (0 : UInt8) ∉ bytes := fun h => (isTokenByte_true (plain.2 0 h)).2.2.2 rfl
      obtain ⟨b, bs, rfl⟩ := List.exists_cons_of_ne_nil plain.1
      have hb := isTokenByte_true (plain.2 b List.mem_cons_self)
      have htext : (Value.token (b :: bs) plain).text ++ after = b :: (bs ++ after) := rfl
      rw [List.cons_append] at hend
      rw [htext, dropWhile_space _ hb.2.1]
      simp only [List.head?_cons, Option.some_inj, hb.2.2.1, if_false, hend]
      exact store_holds hzero hpos hbuffer after
  · intro h
    rw [extractJsonField, search_absent h]
    exact notAvailable_holds buffer bufsize

def oneSpace : Space := ⟨[32], List.all_eq_true.mp (by decide)⟩

def noSpace : Space := ⟨[], fun _ hb => absurd hb List.not_mem_nil⟩

def ipName : FieldName :=
  ⟨⟨[105, 112], List.all_eq_true.mp (by decide)⟩, List.cons_ne_nil _ _, by decide⟩

def ipMember : Member :=
  ⟨noSpace, ipName.bytes, oneSpace, .string [49, 48, 46, 49] (by decide), noSpace⟩

def typeMember : Member :=
  ⟨noSpace, ⟨[116, 121, 112, 101], List.all_eq_true.mp (by decide)⟩, noSpace,
    .string [105, 112] (by decide), noSpace⟩

theorem ipObject_distinct : ([typeMember, ipMember].map Member.key).Nodup := by
  simp [typeMember, ipMember, ipName]

/-- `{"type":"ip","ip": "10.1"}`. -/
def ipObject : FlatObject := ⟨noSpace, noSpace, [typeMember, ipMember], noSpace, ipObject_distinct⟩

theorem extractJsonField_ip :
    Holds (extractJsonField ipObject.text ipName.bytes.val (List.replicate 4 0) 4)
      ipMember.value.content 4 :=
  (extractJsonField_object ipObject ipName (by decide) (by decide)).1 ipMember
    (List.mem_cons_of_mem _ (List.mem_singleton_self _)) rfl

example : extractJsonField ipObject.text ipName.bytes.val (List.replicate 4 0) 4 =
    [49, 48, 46, 0] := by decide

end CSimples.JsonField
