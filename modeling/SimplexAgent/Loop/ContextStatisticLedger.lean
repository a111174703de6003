import SimplexAgent.Loop.ContextStatistic

/-!
# What the statistic counts

The slot of the context-statistic hook against the responses it accounts for. `Shows`
says that a slot holds the sums of a list of usages and the number of the last response
among them; `account` adds one usage to what a slot shows, or refuses it exactly when
the usage contradicts itself or a sum leaves 64 bits (`account_ok_iff`).

A state is tracked when its slot shows all but the last responses of a log and those
last ones are the unaccounted steps of its history. Then an update that succeeds shows
the whole log.
-/

namespace SimplexAgent.Loop.ContextStatistic

open Dataclass
open Verified.Tables (bind_ok)

/-! ## Totals -/

/-- Sums over the responses that reported usage. -/
structure Totals where
  prompt : Nat := 0
  generated : Nat := 0
  cacheHit : Nat := 0
  samples : Nat := 0
  deriving DecidableEq

def Totals.add (t : Totals) : Option TokenCost → Totals
  | none => t
  | some cost =>
    { prompt := t.prompt + cost.prompt.toNat
      generated := t.generated + cost.generated.toNat
      cacheHit := t.cacheHit + cost.cacheHit.toNat
      samples := t.samples + 1 }

def Totals.of (costs : List (Option TokenCost)) : Totals := costs.foldl Totals.add {}

/-- A usage that can be added: hits are part of the prompt and the sums stay in 64 bits. -/
def Fits (t : Totals) (cost : Option TokenCost) : Prop :=
  ∀ c, cost = some c → c.cacheHit ≤ c.prompt ∧
    t.prompt + t.generated + (c.prompt.toNat + c.generated.toNat) < 2 ^ 64 ∧
    t.samples + 1 < 2 ^ 64

instance (t : Totals) (cost : Option TokenCost) : Decidable (Fits t cost) :=
  match cost with
  | none => isTrue (by simp [Fits])
  | some c => decidable_of_iff (c.cacheHit ≤ c.prompt ∧
      t.prompt + t.generated + (c.prompt.toNat + c.generated.toNat) < 2 ^ 64 ∧
      t.samples + 1 < 2 ^ 64) (by simp [Fits])

/-! ## Keys -/

theorem affix_inj {a b f g : String} (h : a ++ f ++ b = a ++ g ++ b) : f = g := by
  have hChars := congrArg String.toList h
  simp only [String.toList_append, List.append_assoc, List.append_cancel_left_eq,
    List.append_cancel_right_eq] at hChars
  exact String.toList_inj.mp hChars

theorem cumulativeKey_inj {f g : String} (h : cumulativeKey f = cumulativeKey g) : f = g :=
  affix_inj h

theorem maximumKey_inj {f g : String} (h : maximumKey f = maximumKey g) : f = g :=
  affix_inj h

theorem maximumKey_ne_cumulativeKey (f g : String) : maximumKey f ≠ cumulativeKey g := by
  intro h
  have hMaximum : "max_exchange_".toList = 'm' :: "ax_exchange_".toList := by decide
  have hCumulative : "cumulative_exchange_".toList = 'c' :: "umulative_exchange_".toList := by
    decide
  have hChars := congrArg String.toList h
  unfold maximumKey cumulativeKey at hChars
  rw [String.toList_append, String.toList_append, String.toList_append, String.toList_append,
    hMaximum, hCumulative] at hChars
  injection hChars with hFirst
  exact absurd hFirst (by decide)

/-! ## Counters -/

theorem ok_bind {ε α β : Type} (a : α) (f : α → Except ε β) : (Except.ok a >>= f) = f a := rfl

theorem addChecked_eq (left right : UInt64) : addChecked left right =
      if left.toNat + right.toNat < 2 ^ 64 then .ok (left + right)
      else refuse "context statistic token count overflow" := by
  have hLeft := left.toNat_lt
  have hRight := right.toNat_lt
  have hMax : (18446744073709551615 - left : UInt64).toNat = 2 ^ 64 - 1 - left.toNat := by
    rw [UInt64.toNat_sub_of_le]
    · rfl
    · rw [UInt64.le_iff_toNat_le]
      show left.toNat ≤ 18446744073709551615
      omega
  unfold addChecked
  by_cases hFits : left.toNat + right.toNat < 2 ^ 64
  · rw [if_pos hFits, if_neg]
    rw [gt_iff_lt, UInt64.lt_iff_toNat_lt, hMax]
    omega
  · rw [if_neg hFits, if_pos]
    rw [gt_iff_lt, UInt64.lt_iff_toNat_lt, hMax]
    omega

theorem addChecked_ok {left right sum : UInt64} (h : addChecked left right = .ok sum) :
    sum = left + right ∧ sum.toNat = left.toNat + right.toNat := by
  rw [addChecked_eq] at h
  split at h
  · rename_i hFits
    injection h with h
    subst h
    exact ⟨rfl, by rw [UInt64.toNat_add, Nat.mod_eq_of_lt hFits]⟩
  · cases h

theorem count_congr {status status' : Json} (hObject : status.IsObject)
    (hObject' : status'.IsObject) {key : String} (hSame : status'.find? key = status.find? key) :
    count status' key = count status key := by
  cases status with
  | obj fields =>
    cases status' with
    | obj fields' =>
      simp only [Json.find?] at hSame
      simp only [count, Json.atKey, hSame]
    | _ => exact absurd hObject' (by simp [Json.IsObject])
  | _ => exact absurd hObject (by simp [Json.IsObject])

theorem count_set_same {status : Json} (hObject : status.IsObject) (key : String) (u : UInt64) :
    count (status.set key (.uint u)) key = .ok u := by
  have hObject' : (status.set key (.uint u)).IsObject := (Json.isObject_set _ _ _).mpr hObject
  have hAt : (status.set key (.uint u)).atKey key = .ok (.uint u) :=
    Json.atKey_eq_find? hObject' (by rw [Json.find?_set hObject, if_pos rfl])
  have hLt := u.toNat_lt
  have hWrap : ((u.toNat : Int) % 2 ^ 64).toNat = u.toNat := by omega
  unfold count
  rw [hAt]
  show (if (u.toNat : Int) < 0 then _ else Except.ok (UInt64.ofInt u.toNat)) = _
  rw [if_neg (by omega)]
  simp only [UInt64.ofInt, hWrap, UInt64.ofNat_toNat]

def Counts (status : Json) (key : String) (n : Nat) : Prop :=
  ∃ u, count status key = .ok u ∧ u.toNat = n

theorem Counts.congr {status status' : Json} {key : String} {n : Nat} (h : Counts status key n)
    (hObject : status.IsObject) (hObject' : status'.IsObject)
    (hSame : status'.find? key = status.find? key) : Counts status' key n := by
  unfold Counts
  rw [count_congr hObject hObject' hSame]
  exact h

/-! ## What a slot holds -/

/-- An object with the given sums, number of samples and number of the last accounted
response. -/
structure Counted (status : Json) (sums : String → Nat) (samples : Nat) (accounted : UInt64) :
    Prop where
  object : status.IsObject
  sums : ∀ field ∈ fieldNames, Counts status (cumulativeKey field) (sums field)
  maxima : ∀ field ∈ fieldNames, ∃ n, Counts status (maximumKey field) n
  samples : Counts status "sampled_exchange_count" samples
  accounted : count status "accounted_commit_sequence" = .ok accounted

/-- A slot that holds these counts, with a last exchange that a ratio can be derived from. -/
structure Holds (status : Json) (sums : String → Nat) (samples : Nat) (accounted : UInt64) :
    Prop extends Counted status sums samples accounted where
  last : status.find? (lastKey "total") = some .null ∨ ∃ n, Counts status (lastKey "total") n

def countedKeys : List String :=
  fieldNames.map cumulativeKey ++ fieldNames.map maximumKey ++
    ["sampled_exchange_count", "accounted_commit_sequence"]

theorem cumulativeKey_counted {field : String} (hField : field ∈ fieldNames) :
    cumulativeKey field ∈ countedKeys := by
  simp only [countedKeys, List.mem_append, List.mem_map]
  exact Or.inl (Or.inl ⟨field, hField, rfl⟩)

theorem maximumKey_counted {field : String} (hField : field ∈ fieldNames) :
    maximumKey field ∈ countedKeys := by
  simp only [countedKeys, List.mem_append, List.mem_map]
  exact Or.inl (Or.inr ⟨field, hField, rfl⟩)

theorem keys_distinct : "last_window_remaining_ratio" ∉ countedKeys ∧
    (∀ field ∈ fieldNames, lastKey field ∉ countedKeys) ∧
    (∀ field ∈ fieldNames, cumulativeKey field ≠ "sampled_exchange_count" ∧
      cumulativeKey field ≠ "accounted_commit_sequence" ∧
      maximumKey field ≠ "sampled_exchange_count" ∧
      maximumKey field ≠ "accounted_commit_sequence") := by
  decide

variable {status status' : Json} {sums : String → Nat} {samples : Nat} {accounted : UInt64}

theorem Counted.congr (h : Counted status sums samples accounted) (hObject : status'.IsObject)
    (hSame : ∀ key ∈ countedKeys, status'.find? key = status.find? key)
    (hLast : status'.find? (lastKey "total") = some .null ∨
      ∃ n, Counts status' (lastKey "total") n) : Holds status' sums samples accounted := by
  have hCounts : ∀ key ∈ countedKeys, ∀ n, Counts status key n → Counts status' key n :=
    fun key hKey n hn => hn.congr h.object hObject (hSame key hKey)
  refine ⟨⟨?_, ?_, ?_, ?_, ?_⟩, ?_⟩
  · exact hObject
  · exact fun field hField => hCounts _ (cumulativeKey_counted hField) _ (h.sums field hField)
  · intro field hField
    obtain ⟨n, hn⟩ := h.maxima field hField
    exact ⟨n, hCounts _ (maximumKey_counted hField) n hn⟩
  · exact hCounts _ (by decide) _ h.samples
  · rw [count_congr h.object hObject (hSame _ (by decide))]
    exact h.accounted
  · exact hLast

theorem Holds.last_set (h : Holds status sums samples accounted) {key : String}
    (hTotal : key ≠ lastKey "total") (value : Json) :
    (status.set key value).find? (lastKey "total") = some .null ∨
      ∃ n, Counts (status.set key value) (lastKey "total") n := by
  have hSame : (status.set key value).find? (lastKey "total") = status.find? (lastKey "total") := by
    rw [Json.find?_set h.object, if_neg hTotal.symm]
  rw [hSame]
  rcases h.last with hNull | ⟨n, hn⟩
  · exact Or.inl hNull
  · exact Or.inr ⟨n, hn.congr h.object ((Json.isObject_set _ _ _).mpr h.object) hSame⟩

/-- A field that is only displayed. -/
theorem Holds.set_other (h : Holds status sums samples accounted) {key : String}
    (hKey : key ∉ countedKeys) (hTotal : key ≠ lastKey "total") (value : Json) :
    Holds (status.set key value) sums samples accounted := by
  refine h.toCounted.congr ((Json.isObject_set _ _ _).mpr h.object) (fun k hk => ?_)
    (h.last_set hTotal value)
  have hOther : k ≠ key := fun hEq => hKey (hEq ▸ hk)
  rw [Json.find?_set h.object, if_neg hOther]

theorem find?_foldl_set {α : Type} (key : α → String) (value : α → Json) (k : String)
    (fields : List α) (hOther : ∀ field ∈ fields, k ≠ key field) :
    ∀ {status : Json}, status.IsObject →
      (fields.foldl (fun s field => s.set (key field) (value field)) status).IsObject ∧
      (fields.foldl (fun s field => s.set (key field) (value field)) status).find? k =
        status.find? k := by
  induction fields with
  | nil =>
    intro status hObject
    exact ⟨hObject, rfl⟩
  | cons field rest ih =>
    intro status hObject
    have hNext := ih (fun f hf => hOther f (by simp [hf]))
      ((Json.isObject_set status (key field) (value field)).mpr hObject)
    rw [Json.find?_set hObject, if_neg (hOther field (by simp))] at hNext
    exact hNext

theorem Counted.rewriteLast (h : Counted status sums samples accounted) (value : String → Json)
    (ratio : Json) (hValue : value "total" = .null ∨ ∃ u, value "total" = .uint u) :
    Holds ((fieldNames.foldl (fun s field => s.set (lastKey field) (value field)) status).set
      "last_window_remaining_ratio" ratio) sums samples accounted := by
  have hFold : ∀ key ∈ countedKeys,
      (fieldNames.foldl (fun s field => s.set (lastKey field) (value field)) status).IsObject ∧
      (fieldNames.foldl (fun s field => s.set (lastKey field) (value field)) status).find? key =
        status.find? key := by
    intro key hKey
    refine find?_foldl_set lastKey value key fieldNames (fun field hField hEq => ?_) h.object
    exact keys_distinct.2.1 field hField (hEq ▸ hKey)
  have hObject := (hFold "sampled_exchange_count" (by decide)).1
  have hObject' := (Json.isObject_set _ "last_window_remaining_ratio" ratio).mpr hObject
  refine h.congr hObject' (fun key hKey => ?_) ?_
  · have hOther : key ≠ "last_window_remaining_ratio" :=
      fun hEq => keys_distinct.1 (hEq ▸ hKey)
    rw [Json.find?_set hObject, if_neg hOther, (hFold key hKey).2]
  · have hTotal : ((fieldNames.foldl (fun s field => s.set (lastKey field) (value field))
        status).set "last_window_remaining_ratio" ratio).find? (lastKey "total") =
        some (value "total") := by
      rw [Json.find?_set hObject, if_neg (by decide)]
      have hThree := (find?_foldl_set lastKey value "" ["prompt", "generated", "cache_hit"]
        (by decide) h.object).1
      exact (Json.find?_set hThree _ _ _).trans (if_pos rfl)
    rcases hValue with hNull | ⟨u, hu⟩
    · exact Or.inl (by rw [hTotal, hNull])
    · refine Or.inr ⟨u.toNat, u, ?_, rfl⟩
      rw [← count_set_same h.object (lastKey "total") u]
      refine count_congr ((Json.isObject_set _ _ _).mpr h.object) hObject' ?_
      rw [hTotal, Json.find?_set h.object, if_pos rfl, hu]

theorem Counted.clearLast (h : Counted status sums samples accounted) :
    Holds (clearLast status) sums samples accounted :=
  h.rewriteLast (fun _ => .null) .null (Or.inl rfl)

/-! ## Accounting for one response -/

section Account

variable {round : Rat → Rat} {window : UInt64}

/-- The usage of the last exchange under the name of its part. -/
def lastValue (cost : TokenCost) (total : UInt64) (field : String) : Json :=
  .uint (((usageFields cost total).lookup field).getD 0)

theorem setLast_eq (status : Json) (cost : TokenCost) (total : UInt64) :
    setLast round window status cost total =
      (fieldNames.foldl (fun s field => s.set (lastKey field) (lastValue cost total field))
        status).set "last_window_remaining_ratio" (remainingRatio round window total) := rfl

theorem Holds.setLast (h : Holds status sums samples accounted) (cost : TokenCost)
    (total : UInt64) : Holds (setLast round window status cost total) sums samples accounted := by
  rw [setLast_eq]
  exact h.toCounted.rewriteLast _ _ (Or.inr ⟨total, rfl⟩)

def addTo (sums : String → Nat) (field : String × UInt64) : String → Nat :=
  fun name => if name = field.1 then sums name + field.2.toNat else sums name

theorem Holds.accountField (h : Holds status sums samples accounted) {field : String × UInt64}
    (hField : field.1 ∈ fieldNames) : (sums field.1 + field.2.toNat < 2 ^ 64 →
      ∃ status', accountField status field = .ok status' ∧
        Holds status' (addTo sums field) samples accounted) ∧
    (¬sums field.1 + field.2.toNat < 2 ^ 64 → ∃ f, accountField status field = .error f) := by
  obtain ⟨sum, hSum, hNat⟩ := h.sums field.1 hField
  obtain ⟨_, most, hMost, -⟩ := h.maxima field.1 hField
  have hObject := (Json.isObject_set status (maximumKey field.1)
    (.uint (max most field.2))).mpr h.object
  have hKeep : count (status.set (maximumKey field.1) (.uint (max most field.2)))
      (cumulativeKey field.1) = .ok sum := by
    rw [← hSum]
    refine count_congr h.object hObject ?_
    rw [Json.find?_set h.object, if_neg (maximumKey_ne_cumulativeKey _ _).symm]
  have hAdd := addChecked_eq sum field.2
  rw [hNat] at hAdd
  unfold ContextStatistic.accountField
  rw [hMost, ok_bind]
  dsimp only
  rw [hKeep, ok_bind]
  constructor
  · intro hFits
    rw [if_pos hFits] at hAdd
    rw [hAdd, ok_bind]
    refine ⟨_, rfl, ?_⟩
    have hObject' := (Json.isObject_set _ (cumulativeKey field.1)
      (.uint (sum + field.2))).mpr hObject
    have hOther : ∀ key, key ≠ maximumKey field.1 → key ≠ cumulativeKey field.1 →
        ((status.set (maximumKey field.1) (.uint (max most field.2))).set
          (cumulativeKey field.1) (.uint (sum + field.2))).find? key = status.find? key := by
      intro key hMaximum hCumulative
      rw [Json.find?_set hObject, if_neg hCumulative, Json.find?_set h.object, if_neg hMaximum]
    refine ⟨⟨?_, ?_, ?_, ?_, ?_⟩, ?_⟩
    · exact hObject'
    · intro name hName
      by_cases hThis : name = field.1
      · subst hThis
        refine ⟨sum + field.2, count_set_same hObject _ _, ?_⟩
        rw [addTo, if_pos rfl, UInt64.toNat_add, hNat, Nat.mod_eq_of_lt hFits]
      · rw [addTo, if_neg hThis]
        exact (h.sums name hName).congr h.object hObject'
          (hOther _ (maximumKey_ne_cumulativeKey _ _).symm fun hKey => hThis (cumulativeKey_inj hKey))
    · intro name hName
      by_cases hThis : name = field.1
      · subst hThis
        refine ⟨_, max most field.2, ?_, rfl⟩
        rw [← count_set_same h.object (maximumKey field.1) (max most field.2)]
        refine count_congr hObject hObject' ?_
        rw [Json.find?_set hObject, if_neg (maximumKey_ne_cumulativeKey _ _)]
      · obtain ⟨n, hn⟩ := h.maxima name hName
        exact ⟨n, hn.congr h.object hObject'
          (hOther _ (fun hKey => hThis (maximumKey_inj hKey)) (maximumKey_ne_cumulativeKey _ _))⟩
    · obtain ⟨-, -, hKeys⟩ := keys_distinct
      exact h.samples.congr h.object hObject' (hOther _ (hKeys _ hField).2.2.1.symm
        (hKeys _ hField).1.symm)
    · obtain ⟨-, -, hKeys⟩ := keys_distinct
      rw [count_congr h.object hObject' (hOther _ (hKeys _ hField).2.2.2.symm
        (hKeys _ hField).2.1.symm)]
      exact h.accounted
    · have hLast := keys_distinct.2.1 "total" (by decide)
      have hSame := hOther (lastKey "total")
        (fun hKey => hLast (hKey ▸ maximumKey_counted hField))
        (fun hKey => hLast (hKey ▸ cumulativeKey_counted hField))
      rw [hSame]
      rcases h.last with hNull | ⟨n, hn⟩
      · exact Or.inl hNull
      · exact Or.inr ⟨n, hn.congr h.object hObject' hSame⟩
  · intro hOver
    rw [if_neg hOver] at hAdd
    rw [hAdd]
    exact ⟨_, rfl⟩

theorem Holds.accountFields (fields : List (String × UInt64))
    (hNames : ∀ field ∈ fields, field.1 ∈ fieldNames) (hNodup : (fields.map Prod.fst).Nodup) :
    ∀ {status : Json} {sums : String → Nat}, Holds status sums samples accounted →
      ((∀ field ∈ fields, sums field.1 + field.2.toNat < 2 ^ 64) →
        ∃ status', fields.foldlM ContextStatistic.accountField status = .ok status' ∧
          Holds status' (fields.foldl addTo sums) samples accounted) ∧
      (¬(∀ field ∈ fields, sums field.1 + field.2.toNat < 2 ^ 64) →
        ∃ f, fields.foldlM ContextStatistic.accountField status = .error f) := by
  induction fields with
  | nil =>
    intro status sums h
    exact ⟨fun _ => ⟨status, rfl, h⟩, fun hNever => absurd (by simp) hNever⟩
  | cons field rest ih =>
    intro status sums h
    rw [List.map_cons, List.nodup_cons] at hNodup
    have hRest : ∀ other ∈ rest, addTo sums field other.1 = sums other.1 := by
      intro other hOther
      rw [addTo, if_neg]
      intro hEq
      exact hNodup.1 (hEq ▸ List.mem_map_of_mem hOther)
    rw [List.foldlM_cons]
    obtain ⟨hAdds, hRefuses⟩ := h.accountField (hNames field (by simp))
    by_cases hFirst : sums field.1 + field.2.toNat < 2 ^ 64
    · obtain ⟨status', hOk, hHolds⟩ := hAdds hFirst
      obtain ⟨hAll, hSome⟩ := ih (fun f hf => hNames f (by simp [hf])) hNodup.2 hHolds
      rw [hOk, ok_bind]
      constructor
      · intro hFits
        refine hAll fun other hOther => ?_
        rw [hRest other hOther]
        exact hFits other (by simp [hOther])
      · intro hOver
        refine hSome fun hFits => hOver fun other hOther => ?_
        rcases List.mem_cons.mp hOther with rfl | hMem
        · exact hFirst
        · rw [← hRest other hMem]
          exact hFits other hMem
    · obtain ⟨f, hError⟩ := hRefuses hFirst
      rw [hError]
      exact ⟨fun hFits => absurd (hFits field (by simp)) hFirst, fun _ => ⟨f, rfl⟩⟩

/-! ## What a slot shows -/

variable {t : Totals} {state : AgentInputState}
variable {log : List (Option TokenCost)} {status' : Json}

def Totals.sum (t : Totals) (field : String) : Nat :=
  if field = "prompt" then t.prompt
  else if field = "generated" then t.generated
  else if field = "cache_hit" then t.cacheHit
  else if field = "total" then t.prompt + t.generated
  else 0

/-- A slot with the sums `t`, up to the response with the number `accounted`. -/
structure Shows (status : Json) (t : Totals) (accounted : UInt64) : Prop where
  holds : Holds status t.sum t.samples accounted
  hits : t.cacheHit ≤ t.prompt

theorem Holds.countSample (h : Holds status sums samples accounted) {n : UInt64}
    (hn : n.toNat = samples + 1) :
    Holds (status.set "sampled_exchange_count" (.uint n)) sums (samples + 1) accounted := by
  have hObject := (Json.isObject_set status "sampled_exchange_count" (.uint n)).mpr h.object
  have hOther : ∀ key, key ≠ "sampled_exchange_count" →
      (status.set "sampled_exchange_count" (.uint n)).find? key = status.find? key := by
    intro key hKey
    rw [Json.find?_set h.object, if_neg hKey]
  obtain ⟨-, -, hKeys⟩ := keys_distinct
  refine ⟨⟨?_, ?_, ?_, ?_, ?_⟩, ?_⟩
  · exact hObject
  · intro field hField
    exact (h.sums field hField).congr h.object hObject (hOther _ (hKeys field hField).1)
  · intro field hField
    obtain ⟨most, hMost⟩ := h.maxima field hField
    exact ⟨most, hMost.congr h.object hObject (hOther _ (hKeys field hField).2.2.1)⟩
  · exact ⟨n, count_set_same h.object _ _, hn⟩
  · rw [count_congr h.object hObject (hOther _ (by decide))]
    exact h.accounted
  · exact h.last_set (by decide) _

theorem Holds.setAverage (h : Holds status sums samples accounted) :
    ∃ status', setAverage round status = .ok status' ∧ Holds status' sums samples accounted := by
  obtain ⟨prompt, hPrompt, -⟩ := h.sums "prompt" (by decide)
  obtain ⟨hits, hHits, -⟩ := h.sums "cache_hit" (by decide)
  unfold ContextStatistic.setAverage
  rw [hPrompt, ok_bind, hHits, ok_bind]
  exact ⟨_, rfl, h.set_other (by decide) (by decide) _⟩

/-- The end of `account`: the sample counts unless the counter is at its limit. -/
theorem Holds.addSample (round : Rat → Rat) (h : Holds status sums samples accounted) :
    (samples + 1 < 2 ^ 64 → ∃ status', (do
        let n ← addChecked (← count status "sampled_exchange_count") 1
        ContextStatistic.setAverage round (status.set "sampled_exchange_count" (.uint n))) =
          .ok status' ∧ Holds status' sums (samples + 1) accounted) ∧
    (¬samples + 1 < 2 ^ 64 → ∃ f, (do
        let n ← addChecked (← count status "sampled_exchange_count") 1
        ContextStatistic.setAverage round (status.set "sampled_exchange_count" (.uint n))) =
          Except.error f) := by
  obtain ⟨n, hCount, hn⟩ := h.samples
  have hAdd := addChecked_eq n 1
  rw [hn, show (1 : UInt64).toNat = 1 from rfl] at hAdd
  rw [hCount, ok_bind]
  constructor
  · intro hMore
    rw [if_pos hMore] at hAdd
    have hNext : (n + 1).toNat = samples + 1 := by
      rw [(addChecked_ok hAdd).2, hn]
      rfl
    rw [hAdd, ok_bind]
    exact (h.countSample hNext).setAverage
  · intro hFull
    rw [if_neg hFull] at hAdd
    rw [hAdd]
    exact ⟨_, rfl⟩

theorem addTo_usageFields (t : Totals) (cost : TokenCost) {total : UInt64}
    (hTotal : total.toNat = cost.prompt.toNat + cost.generated.toNat) :
    (usageFields cost total).foldl addTo t.sum = (t.add (some cost)).sum := by
  funext field
  simp only [usageFields, List.foldl_cons, List.foldl_nil, addTo, Totals.sum, Totals.add]
  by_cases hPrompt : field = "prompt"
  · subst hPrompt
    simp
  by_cases hGenerated : field = "generated"
  · subst hGenerated
    simp
  by_cases hCache : field = "cache_hit"
  · subst hCache
    simp
  by_cases hAll : field = "total"
  · subst hAll
    simp
    omega
  · simp only [hPrompt, hGenerated, hCache, hAll, if_false]

theorem usageFields_fit (h : Shows status t accounted) {cost : TokenCost} {total : UInt64}
    (hHit : cost.cacheHit.toNat ≤ cost.prompt.toNat)
    (hTotal : total.toNat = cost.prompt.toNat + cost.generated.toNat) :
    (∀ field ∈ usageFields cost total, t.sum field.1 + field.2.toNat < 2 ^ 64) ↔
      t.prompt + t.generated + (cost.prompt.toNat + cost.generated.toNat) < 2 ^ 64 := by
  have hHits := h.hits
  have hPrompt : t.sum "prompt" = t.prompt := rfl
  have hGenerated : t.sum "generated" = t.generated := rfl
  have hCache : t.sum "cache_hit" = t.cacheHit := rfl
  have hAll : t.sum "total" = t.prompt + t.generated := rfl
  simp only [usageFields, List.forall_mem_cons, List.not_mem_nil, false_imp_iff, implies_true,
    and_true, hPrompt, hGenerated, hCache, hAll]
  omega

/--
**One response is accounted for exactly when its usage fits**: the hits are part of the
prompt, and neither the sum of all tokens nor the number of samples leaves 64 bits.
-/
theorem Shows.account (round : Rat → Rat) (window : UInt64) (h : Shows status t accounted)
    (cost : Option TokenCost) :
    (Fits t cost → ∃ status', account round window status cost = .ok status' ∧
      Shows status' (t.add cost) accounted) ∧
    (¬Fits t cost → ∃ f, account round window status cost = .error f) := by
  have hClear := h.holds.toCounted.clearLast
  cases cost with
  | none =>
    refine ⟨fun _ => ⟨_, rfl, hClear, h.hits⟩, fun hNever => absurd ?_ hNever⟩
    intro c hc
    cases hc
  | some cost =>
    have hFits : Fits t (some cost) ↔ cost.cacheHit ≤ cost.prompt ∧
        t.prompt + t.generated + (cost.prompt.toNat + cost.generated.toNat) < 2 ^ 64 ∧
        t.samples + 1 < 2 ^ 64 := by
      constructor
      · exact fun hAll => hAll cost rfl
      · intro hAll c hc
        cases hc
        exact hAll
    rw [hFits]
    unfold ContextStatistic.account
    dsimp only
    by_cases hHit : cost.cacheHit > cost.prompt
    · rw [if_pos hHit]
      exact ⟨fun hAll => absurd hAll.1 (by simpa using hHit), fun _ => ⟨_, rfl⟩⟩
    rw [if_neg hHit]
    have hSubset : cost.cacheHit.toNat ≤ cost.prompt.toNat := by
      simpa [UInt64.lt_iff_toNat_lt] using hHit
    have hAdd := addChecked_eq cost.prompt cost.generated
    by_cases hSum : cost.prompt.toNat + cost.generated.toNat < 2 ^ 64
    · rw [if_pos hSum] at hAdd
      rw [hAdd, ok_bind]
      have hTotal : (cost.prompt + cost.generated).toNat =
          cost.prompt.toNat + cost.generated.toNat := (addChecked_ok hAdd).2
      have hNames : ∀ field ∈ usageFields cost (cost.prompt + cost.generated),
          field.1 ∈ fieldNames := by
        simp [usageFields, fieldNames]
      have hLast : Holds (setLast round window (ContextStatistic.clearLast status) cost
          (cost.prompt + cost.generated)) t.sum t.samples accounted := hClear.setLast cost _
      obtain ⟨hAdds, hRefuses⟩ := Holds.accountFields
        (usageFields cost (cost.prompt + cost.generated)) hNames (by simp [usageFields]) hLast
      rw [usageFields_fit h hSubset hTotal] at hAdds hRefuses
      by_cases hRoom : t.prompt + t.generated + (cost.prompt.toNat + cost.generated.toNat) < 2 ^ 64
      · obtain ⟨status', hOk, hHolds⟩ := hAdds hRoom
        rw [addTo_usageFields t cost hTotal] at hHolds
        obtain ⟨hCounts, hEnds⟩ := hHolds.addSample round
        rw [hOk, ok_bind]
        constructor
        · intro hAll
          obtain ⟨status'', hDone, hHolds''⟩ := hCounts hAll.2.2
          refine ⟨status'', hDone, hHolds'', ?_⟩
          have hHits := h.hits
          show t.cacheHit + cost.cacheHit.toNat ≤ t.prompt + cost.prompt.toNat
          omega
        · intro hNot
          exact hEnds fun hMore => hNot ⟨by simpa using hHit, hRoom, hMore⟩
      · obtain ⟨f, hError⟩ := hRefuses hRoom
        rw [hError]
        exact ⟨fun hAll => absurd hAll.2.1 hRoom, fun _ => ⟨f, rfl⟩⟩
    · rw [if_neg hSum] at hAdd
      rw [hAdd]
      refine ⟨fun hAll => absurd hAll.2.1 (by omega), fun _ => ⟨_, rfl⟩⟩

theorem Shows.account_ok {cost : Option TokenCost} (h : Shows status t accounted)
    (hOk : ContextStatistic.account round window status cost = .ok status') :
    Fits t cost ∧ Shows status' (t.add cost) accounted := by
  obtain ⟨hAdds, hRefuses⟩ := h.account round window cost
  by_cases hFits : Fits t cost
  · obtain ⟨next, hNext, hShows⟩ := hAdds hFits
    rw [hNext] at hOk
    injection hOk with hSame
    subst hSame
    exact ⟨hFits, hShows⟩
  · obtain ⟨f, hError⟩ := hRefuses hFits
    rw [hError] at hOk
    cases hOk

/-! ## Accounting for a history -/

/-- The usages of the steps behind a checkpoint that moves along with them. -/
def pendingCosts (checkpoint : UInt64) : List AgentLoopStep → List (Option TokenCost)
  | [] => []
  | step :: rest =>
    if step.commitSequence = 0 ∨ step.commitSequence ≤ checkpoint then
      pendingCosts checkpoint rest
    else step.modelResponse.cost :: pendingCosts step.commitSequence rest

def lastSequence (checkpoint : UInt64) : List AgentLoopStep → UInt64
  | [] => checkpoint
  | step :: rest =>
    if step.commitSequence = 0 ∨ step.commitSequence ≤ checkpoint then
      lastSequence checkpoint rest
    else lastSequence step.commitSequence rest

/-- These steps are responses and their numbers follow each other. -/
def Consecutive (checkpoint : UInt64) : List AgentLoopStep → Prop
  | [] => True
  | step :: rest =>
    if step.commitSequence = 0 ∨ step.commitSequence ≤ checkpoint then
      Consecutive checkpoint rest
    else
      step.commitSequence.toNat = checkpoint.toNat + 1 ∧
        step.modelResponse.type = .modelResponse ∧ Consecutive step.commitSequence rest

/-- A list of usages can be added one after the other. -/
def FitsAll : Totals → List (Option TokenCost) → Prop
  | _, [] => True
  | t, cost :: rest => Fits t cost ∧ FitsAll (t.add cost) rest

theorem addChecked_one {checkpoint sequence : UInt64}
    (hNext : sequence.toNat = checkpoint.toNat + 1) : addChecked checkpoint 1 = .ok sequence := by
  have hLt := sequence.toNat_lt
  rw [addChecked_eq, show (1 : UInt64).toNat = 1 from rfl, if_pos (by omega)]
  congr 1
  rw [← UInt64.toNat_inj, UInt64.toNat_add, show (1 : UInt64).toNat = 1 from rfl, hNext]
  exact Nat.mod_eq_of_lt (by omega)

theorem reconcileStep_next {status : Json} {checkpoint : UInt64} {step : AgentLoopStep}
    (hNew : ¬(step.commitSequence = 0 ∨ step.commitSequence ≤ checkpoint))
    (hNext : step.commitSequence.toNat = checkpoint.toNat + 1)
    (hType : step.modelResponse.type = .modelResponse) :
    reconcileStep round window (status, checkpoint) step =
      (account round window status step.modelResponse.cost).map fun status' =>
        (status', step.commitSequence) := by
  unfold reconcileStep
  rw [if_neg hNew]
  dsimp only
  rw [addChecked_one hNext, ok_bind, if_neg (by simp), if_neg (by simp [hType])]
  cases account round window status step.modelResponse.cost with
  | ok status' => rfl
  | error f => rfl

theorem reconcileStep_ok {status status' : Json} {checkpoint checkpoint' : UInt64}
    {step : AgentLoopStep}
    (h : reconcileStep round window (status, checkpoint) step = .ok (status', checkpoint')) :
    (step.commitSequence = 0 ∨ step.commitSequence ≤ checkpoint) ∧
        status' = status ∧ checkpoint' = checkpoint ∨
      ¬(step.commitSequence = 0 ∨ step.commitSequence ≤ checkpoint) ∧
        step.commitSequence.toNat = checkpoint.toNat + 1 ∧
        step.modelResponse.type = .modelResponse ∧
        account round window status step.modelResponse.cost = .ok status' ∧
        checkpoint' = step.commitSequence := by
  unfold reconcileStep at h
  by_cases hOld : step.commitSequence = 0 ∨ step.commitSequence ≤ checkpoint
  · rw [if_pos hOld] at h
    injection h with h
    injection h with hStatus hCheckpoint
    exact Or.inl ⟨hOld, hStatus.symm, hCheckpoint.symm⟩
  · rw [if_neg hOld] at h
    obtain ⟨next, hNext, h⟩ := bind_ok h
    split at h
    · cases h
    rename_i hSame
    split at h
    · cases h
    rename_i hType
    obtain ⟨status'', hAccount, h⟩ := bind_ok h
    injection h with h
    injection h with hStatus hCheckpoint
    subst hStatus
    have hNumber : step.commitSequence = next := by simpa using hSame
    refine Or.inr ⟨hOld, ?_, by simpa using hType, hAccount, hCheckpoint.symm⟩
    rw [hNumber, (addChecked_ok hNext).2]
    rfl

variable (history : List AgentLoopStep)

theorem reconcile_fold : ∀ {status status' : Json} {t : Totals} {checkpoint checkpoint' : UInt64},
      Shows status t accounted →
      history.foldlM (reconcileStep round window) (status, checkpoint) =
        .ok (status', checkpoint') →
      Shows status' ((pendingCosts checkpoint history).foldl Totals.add t) accounted ∧
        checkpoint' = lastSequence checkpoint history := by
  induction history with
  | nil =>
    intro status status' t checkpoint checkpoint' hShows h
    injection h with h
    injection h with hStatus hCheckpoint
    subst hStatus
    exact ⟨hShows, hCheckpoint.symm⟩
  | cons step rest ih =>
    intro status status' t checkpoint checkpoint' hShows h
    rw [List.foldlM_cons] at h
    obtain ⟨⟨next, number⟩, hStep, hRest⟩ := bind_ok h
    rcases reconcileStep_ok hStep with ⟨hOld, rfl, rfl⟩ | ⟨hNew, -, -, hAccount, rfl⟩
    · rw [pendingCosts, if_pos hOld, lastSequence, if_pos hOld]
      exact ih hShows hRest
    · rw [pendingCosts, if_neg hNew, lastSequence, if_neg hNew]
      exact ih (hShows.account_ok hAccount).2 hRest

/-- **A pass over a history in order succeeds exactly when the pending usages fit.** -/
theorem reconcile_fold_iff : ∀ {status : Json} {t : Totals} {checkpoint : UInt64},
      Shows status t accounted → Consecutive checkpoint history →
      ((∃ result, history.foldlM (reconcileStep round window) (status, checkpoint) = .ok result) ↔
        FitsAll t (pendingCosts checkpoint history)) := by
  induction history with
  | nil =>
    intro status t checkpoint _ _
    exact ⟨fun _ => trivial, fun _ => ⟨_, rfl⟩⟩
  | cons step rest ih =>
    intro status t checkpoint hShows hOrder
    rw [List.foldlM_cons]
    by_cases hOld : step.commitSequence = 0 ∨ step.commitSequence ≤ checkpoint
    · rw [Consecutive, if_pos hOld] at hOrder
      rw [pendingCosts, if_pos hOld, reconcileStep, if_pos hOld, ok_bind]
      exact ih hShows hOrder
    · rw [Consecutive, if_neg hOld] at hOrder
      rw [pendingCosts, if_neg hOld, reconcileStep_next hOld hOrder.1 hOrder.2.1]
      have hSpec := hShows.account round window step.modelResponse.cost
      by_cases hFits : Fits t step.modelResponse.cost
      · obtain ⟨next, hOk, hNext⟩ := hSpec.1 hFits
        rw [hOk, Except.map, ok_bind, ih hNext hOrder.2.2]
        exact ⟨fun hAll => ⟨hFits, hAll⟩, fun hAll => hAll.2⟩
      · obtain ⟨f, hError⟩ := hSpec.2 hFits
        rw [hError]
        constructor
        · rintro ⟨result, hNever⟩
          cases hNever
        · exact fun hAll => absurd hAll.1 hFits

/-! ## Without a slot -/

theorem find?_object_of_mem {key : String} {v : Json} (fields : List (String × Json))
    (hMem : key ∈ fields.map Prod.fst) (hOnly : ∀ f ∈ fields, f.1 = key → f.2 = v) :
    (Json.object fields).find? key = some v := by
  induction fields with
  | nil => simp at hMem
  | cons field rest ih =>
    obtain ⟨k, value⟩ := field
    rw [Json.find?_object_cons]
    by_cases hKey : key = k
    · rw [if_pos hKey]
      exact congrArg some (hOnly (k, value) (by simp) hKey.symm)
    · rw [if_neg hKey]
      refine ih ?_ fun f hf => hOnly f (by simp [hf])
      simpa [hKey] using hMem

theorem emptyFields_zero (window : UInt64) {key : String} (hKey : key ∈ countedKeys) :
    (Json.object (emptyFields window)).find? key = some (.uint 0) := by
  have hKeys : ∀ key ∈ countedKeys, key ≠ "context_window_tokens" ∧
      key ≠ "average_cache_hit_probability" ∧ key ∈ (emptyFields 0).map Prod.fst := by
    decide
  obtain ⟨hWindow, hAverage, hMem⟩ := hKeys key hKey
  refine find?_object_of_mem _ hMem fun field hField hEq => ?_
  subst hEq
  simp only [emptyFields, List.mem_cons, List.not_mem_nil, or_false] at hField
  rcases hField with rfl | rfl | rfl | rfl | rfl | rfl | rfl | rfl | rfl | rfl | rfl | rfl | rfl | rfl
  all_goals first | rfl | exact absurd rfl hWindow | exact absurd rfl hAverage

theorem shows_empty (window : UInt64) : Shows (emptyStatus window) {} 0 := by
  have hObject : (Json.object (emptyFields window)).IsObject := Json.isObject_object _
  have hCount : ∀ key ∈ countedKeys, count (Json.object (emptyFields window)) key = .ok 0 := by
    intro key hKey
    rw [← count_set_same hObject key 0]
    refine count_congr ((Json.isObject_set _ _ _).mpr hObject) hObject ?_
    rw [emptyFields_zero window hKey, Json.find?_set hObject, if_pos rfl]
  have hSum : ∀ field, ({} : Totals).sum field = 0 := by
    intro field
    unfold Totals.sum
    split_ifs <;> rfl
  refine ⟨Counted.clearLast ⟨hObject, ?_, ?_, ?_, ?_⟩, Nat.le_refl _⟩
  · intro field hField
    exact ⟨0, hCount _ (cumulativeKey_counted hField), (hSum field).symm⟩
  · intro field hField
    exact ⟨0, 0, hCount _ (maximumKey_counted hField), rfl⟩
  · exact ⟨0, hCount _ (by decide), rfl⟩
  · exact hCount _ (by decide)

theorem bootstrapStep_ok {status status' : Json} {checkpoint checkpoint' : UInt64}
    {step : AgentLoopStep}
    (h : bootstrapStep round window (status, checkpoint) step = .ok (status', checkpoint')) :
    account round window status step.modelResponse.cost = .ok status' ∧
      (step.commitSequence = 0 ∧ checkpoint' = checkpoint ∨
        step.commitSequence.toNat = checkpoint.toNat + 1 ∧ checkpoint' = step.commitSequence) := by
  unfold bootstrapStep at h
  by_cases hNone : step.commitSequence = 0
  · rw [if_pos hNone] at h
    obtain ⟨status'', hAccount, h⟩ := bind_ok h
    injection h with h
    injection h with hStatus hCheckpoint
    subst hStatus
    exact ⟨hAccount, Or.inl ⟨hNone, hCheckpoint.symm⟩⟩
  · rw [if_neg hNone] at h
    obtain ⟨next, hNext, h⟩ := bind_ok h
    split at h
    · cases h
    rename_i hSame
    obtain ⟨status'', hAccount, h⟩ := bind_ok h
    injection h with h
    injection h with hStatus hCheckpoint
    subst hStatus
    have hNumber : step.commitSequence = next := by simpa using hSame
    refine ⟨hAccount, Or.inr ⟨?_, hCheckpoint.symm⟩⟩
    rw [hNumber, (addChecked_ok hNext).2]
    rfl

theorem bootstrap_fold : ∀ {status status' : Json} {t : Totals} {checkpoint checkpoint' : UInt64},
      Shows status t accounted →
      history.foldlM (bootstrapStep round window) (status, checkpoint) =
        .ok (status', checkpoint') →
      Shows status' ((history.map fun step => step.modelResponse.cost).foldl Totals.add t)
        accounted := by
  induction history with
  | nil =>
    intro status status' t checkpoint checkpoint' hShows h
    injection h with h
    injection h with hStatus hCheckpoint
    subst hStatus
    exact hShows
  | cons step rest ih =>
    intro status status' t checkpoint checkpoint' hShows h
    rw [List.foldlM_cons] at h
    obtain ⟨⟨next, number⟩, hStep, hRest⟩ := bind_ok h
    exact ih (hShows.account_ok (bootstrapStep_ok hStep).1).2 hRest

/-! ## Reading and writing the slot -/

section

variable (h : Shows status t accounted)
include h

theorem Shows.setAccounted (number : UInt64) :
    Shows (status.set "accounted_commit_sequence" (.uint number)) t number := by
  have hObject := (Json.isObject_set status "accounted_commit_sequence"
    (.uint number)).mpr h.holds.object
  have hOther : ∀ key, key ≠ "accounted_commit_sequence" →
      (status.set "accounted_commit_sequence" (.uint number)).find? key = status.find? key := by
    intro key hKey
    rw [Json.find?_set h.holds.object, if_neg hKey]
  obtain ⟨-, -, hKeys⟩ := keys_distinct
  refine ⟨⟨⟨hObject, ?_, ?_, ?_, ?_⟩, ?_⟩, h.hits⟩
  · intro field hField
    exact (h.holds.sums field hField).congr h.holds.object hObject
      (hOther _ (hKeys field hField).2.1)
  · intro field hField
    obtain ⟨most, hMost⟩ := h.holds.maxima field hField
    exact ⟨most, hMost.congr h.holds.object hObject (hOther _ (hKeys field hField).2.2.2)⟩
  · exact h.holds.samples.congr h.holds.object hObject (hOther _ (by decide))
  · exact count_set_same h.holds.object _ _
  · exact h.holds.last_set (by decide) _

theorem Shows.readStatistics_eq (state : AgentInputState) :
    readStatistics round window state (some status) = reconcile round window status state := by
  obtain ⟨prompt, hPrompt, hPromptNat⟩ := h.holds.sums "prompt" (by decide)
  obtain ⟨generated, hGenerated, hGeneratedNat⟩ := h.holds.sums "generated" (by decide)
  obtain ⟨hits, hHits, hHitsNat⟩ := h.holds.sums "cache_hit" (by decide)
  obtain ⟨total, hTotal, hTotalNat⟩ := h.holds.sums "total" (by decide)
  obtain ⟨samples, hSamples, -⟩ := h.holds.samples
  have hSubset : ¬hits > prompt := by
    have hLe := h.hits
    rw [gt_iff_lt, UInt64.lt_iff_toNat_lt, hPromptNat, hHitsNat]
    show ¬t.prompt < t.cacheHit
    omega
  have hSum : prompt.toNat + generated.toNat = total.toNat := by
    rw [hPromptNat, hGeneratedNat, hTotalNat]
    rfl
  have hAdd : addChecked prompt generated = .ok total := by
    have hLt := total.toNat_lt
    rw [addChecked_eq, if_pos (by omega)]
    congr 1
    rw [← UInt64.toNat_inj, UInt64.toNat_add, hSum]
    exact Nat.mod_eq_of_lt hLt
  unfold readStatistics
  dsimp only
  rw [hPrompt, ok_bind, hGenerated, ok_bind, hHits, ok_bind, hTotal, ok_bind, if_neg hSubset,
    hAdd, ok_bind, if_neg (by simp), hSamples, ok_bind]

/-- **Reading a slot** that succeeds has counted the responses behind its checkpoint. -/
theorem Shows.reconcile_ok (hOk : reconcile round window status state = .ok status') :
    accounted ≤ committed state ∧
      Shows status' ((pendingCosts accounted (steps state)).foldl Totals.add t)
        (committed state) := by
  unfold reconcile at hOk
  rw [h.holds.accounted, ok_bind] at hOk
  split at hOk
  · cases hOk
  rename_i hBehind
  obtain ⟨⟨next, number⟩, hFold, hOk⟩ := bind_ok hOk
  dsimp only at hOk
  split at hOk
  · cases hOk
  rename_i hEnd
  injection hOk with hOk
  subst hOk
  have hNumber : number = committed state := by simpa using hEnd
  refine ⟨by simpa using hBehind, ?_⟩
  rw [← hNumber]
  exact (reconcile_fold (steps state) h hFold).1.setAccounted number

end

/-- Without a slot the whole history is counted. -/
theorem bootstrap_ok (hOk : bootstrap round window state = .ok status') :
    Shows status' (Totals.of ((steps state).map fun step => step.modelResponse.cost))
      (committed state) := by
  unfold bootstrap at hOk
  obtain ⟨⟨next, number⟩, hFold, hOk⟩ := bind_ok hOk
  dsimp only at hOk
  split at hOk
  · cases hOk
  rename_i hEnd
  injection hOk with hOk
  subst hOk
  have hNumber : number = committed state := by simpa using hEnd
  rw [← hNumber]
  exact (bootstrap_fold (steps state) (shows_empty window) hFold).setAccounted number

theorem count_integer {status : Json} {key : String} {u : UInt64}
    (h : count status key = .ok u) : ∃ n, status.find? key = some (.integer n) := by
  unfold count at h
  cases hAt : status.atKey key with
  | error e =>
    rw [hAt] at h
    cases h
  | ok value =>
    rw [hAt] at h
    have hFind : status.find? key = some value := by
      cases status with
      | obj fields =>
        simp only [Json.atKey] at hAt
        split at hAt
        · rename_i v hv
          injection hAt with hAt
          subst hAt
          exact hv
        · cases hAt
      | _ => cases hAt
    cases value with
    | integer n => exact ⟨n, hFind⟩
    | _ => cases h

theorem Shows.refreshLastRatio (h : Shows status t accounted) :
    ∃ status', refreshLastRatio round window status = .ok status' ∧ Shows status' t accounted := by
  have hSet : ∀ value, Shows (status.set "last_window_remaining_ratio" value) t accounted :=
    fun value => ⟨h.holds.set_other keys_distinct.1 (by decide) value, h.hits⟩
  unfold ContextStatistic.refreshLastRatio
  rcases h.holds.last with hNull | ⟨n, u, hCount, -⟩
  · rw [hNull]
    exact ⟨_, rfl, hSet _⟩
  · obtain ⟨value, hFind⟩ := count_integer hCount
    rw [hFind]
    dsimp only
    rw [hCount, ok_bind]
    exact ⟨_, rfl, hSet _⟩

/-- What was written into a slot is read from it. -/
theorem externalStatus_sync {extras : Option Json} {source : String} {status result : Json}
    (h : syncExternalStatus extras source status = .ok result) :
    externalStatus (some result) source = some status := by
  unfold syncExternalStatus at h
  split at h
  · cases h
  split at h
  · cases h
  rename_i hObject
  have hStatus : ∃ slot, status = .obj slot := by
    cases status with
    | obj slot => exact ⟨slot, rfl⟩
    | _ => simp [Json.IsObject] at hObject
  obtain ⟨slot, rfl⟩ := hStatus
  split at h
  · rename_i fields hExtras
    split at h
    · injection h with h
      subst h
      simp [externalStatus, Json.find?, Json.lookup_setField]
    · injection h with h
      subst h
      simp [externalStatus, Json.find?, Json.lookup_setField]
    · injection h with h
      subst h
      simp [externalStatus, Json.find?, Json.lookup_setField]
    · cases h
  · cases h

/-- What a slot has to show after the log `log` of usages, when its owner is up to date. -/
def Current (state : AgentInputState) (log : List (Option TokenCost)) : Prop :=
  ∃ status, externalStatus state.extras name = some status ∧
    Shows status (Totals.of log) (committed state)

/-- A slot shows the beginning of the log, and the rest of the log are the responses of the
history behind its checkpoint; without a slot the history is the log. -/
def Tracked (state : AgentInputState) (log : List (Option TokenCost)) : Prop :=
  match externalStatus state.extras name with
  | none => log = (steps state).map fun step => step.modelResponse.cost
  | some status => ∃ counted accounted, Shows status (Totals.of counted) accounted ∧
      accounted ≤ committed state ∧ log = counted ++ pendingCosts accounted (steps state)

theorem Totals.of_append (counted pending : List (Option TokenCost)) :
    Totals.of (counted ++ pending) = pending.foldl Totals.add (Totals.of counted) := by
  simp [Totals.of]

/-- **Statistics that were read count the whole log.** -/
theorem Tracked.readStatistics (h : Tracked state log)
    (hOk : readStatistics round window state (externalStatus state.extras name) = .ok status') :
    Shows status' (Totals.of log) (committed state) := by
  unfold Tracked at h
  cases hSlot : externalStatus state.extras name with
  | none =>
    rw [hSlot] at h hOk
    rw [show log = _ from h]
    exact bootstrap_ok hOk
  | some status =>
    rw [hSlot] at h hOk
    obtain ⟨counted, accounted, hShows, -, rfl⟩ := h
    rw [hShows.readStatistics_eq] at hOk
    rw [Totals.of_append]
    exact (hShows.reconcile_ok hOk).2

variable {encodedBytes : Json → Nat}

/-- A field that is only displayed. -/
theorem Shows.set_other (h : Shows status t accounted) {key : String} (value : Json)
    (hKey : key ∉ countedKeys) (hTotal : key ≠ lastKey "total") :
    Shows (status.set key value) t accounted :=
  ⟨h.holds.set_other hKey hTotal value, h.hits⟩

theorem Shows.refresh (round : Rat → Rat) (window : UInt64) (h : Shows status t accounted)
    (estimate : UInt64) : ∃ status', ContextStatistic.refreshLastRatio round window
        ((status.set "context_window_tokens" (.uint window)).set
          "estimated_zero_request_tokens" (.uint estimate)) = .ok status' ∧
      Shows status' t accounted := by
  have hWindow : Shows (status.set "context_window_tokens" (.uint window)) t accounted :=
    h.set_other _ (by decide) (by decide)
  have hEstimate : Shows ((status.set "context_window_tokens" (.uint window)).set
      "estimated_zero_request_tokens" (.uint estimate)) t accounted :=
    hWindow.set_other _ (by decide) (by decide)
  exact hEstimate.refreshLastRatio

theorem Shows.setExchanges (h : Shows status t accounted) (exchanges : UInt64) :
    Shows (status.set "accounted_exchanges_in_run" (.uint exchanges)) t accounted :=
  h.set_other _ (by decide) (by decide)

/-- **A successful update counts the whole log**, and changes nothing but the extras. -/
theorem Tracked.update {state state' : AgentInputState} (h : Tracked state log)
    (hOk : ContextStatistic.update round encodedBytes window state = .ok state') :
    Current state' log ∧ state' = { state with extras := state'.extras } := by
  unfold ContextStatistic.update at hOk
  obtain ⟨status, hRead, hOk⟩ := bind_ok hOk
  obtain ⟨estimate, -, hOk⟩ := bind_ok hOk
  obtain ⟨refreshed, hRefresh, hOk⟩ := bind_ok hOk
  obtain ⟨extras, hSync, hOk⟩ := bind_ok hOk
  injection hOk with hOk
  subst hOk
  have hShows := (h.readStatistics hRead).setExchanges
    ((state.loop.map LoopProgress.completedExchanges).getD 0)
  obtain ⟨shown, hShown, hShows⟩ := hShows.refresh round window estimate
  rw [hShown] at hRefresh
  injection hRefresh with hSame
  subst hSame
  exact ⟨⟨_, externalStatus_sync hSync, hShows⟩, rfl⟩

/-- A successful `before_model` counts the whole log, and changes nothing but the extras. -/
theorem Tracked.beforeModel {context context' : ModelContext} (h : Tracked state log)
    (hExtras : context.extras = state.extras)
    (hOk : ContextStatistic.beforeModel round encodedBytes window state context = .ok context') :
    ∃ status, externalStatus context'.extras name = some status ∧
      Shows status (Totals.of log) (committed state) := by
  unfold ContextStatistic.beforeModel at hOk
  rw [hExtras] at hOk
  obtain ⟨status, hRead, hOk⟩ := bind_ok hOk
  obtain ⟨estimate, -, hOk⟩ := bind_ok hOk
  obtain ⟨refreshed, hRefresh, hOk⟩ := bind_ok hOk
  obtain ⟨extras, hSync, hOk⟩ := bind_ok hOk
  injection hOk with hOk
  subst hOk
  have hShows : Shows (if (state.loop.any fun p => p.completedExchanges = 0) = true
      then status.set "accounted_exchanges_in_run" (.uint 0) else status)
      (Totals.of log) (committed state) := by
    split
    · exact (h.readStatistics hRead).setExchanges 0
    · exact h.readStatistics hRead
  obtain ⟨shown, hShown, hShows⟩ := hShows.refresh round window estimate
  rw [hShown] at hRefresh
  injection hRefresh with hSame
  subst hSame
  exact ⟨_, externalStatus_sync hSync, hShows⟩

end Account

end SimplexAgent.Loop.ContextStatistic
