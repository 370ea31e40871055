/-!
# Entries in order of first writing

A list of keyed entries in which a key occurs once: writing a new key appends it, writing a
known key replaces its value and leaves it in its place. Objects of records, the ledger of
a run and the nodes of a scene are kept this way. The lemmas say what one write does to
look-ups, to the entries and to the row of keys.
-/

namespace TurnScript.Ordered

variable {κ α : Type}

/-- The value of a key, if it was written. -/
def get? [BEq κ] (entries : List (κ × α)) (key : κ) : Option α :=
  (entries.find? (·.1 == key)).map (·.2)

/-- Write a key: in its old place if it has one, else at the end. -/
def put [BEq κ] : List (κ × α) → κ → α → List (κ × α)
  | [], key, value => [(key, value)]
  | (other, old) :: rest, key, value =>
    if other == key then (other, value) :: rest else (other, old) :: put rest key value

/-- Take a key away. -/
def erase [BEq κ] (entries : List (κ × α)) (key : κ) : List (κ × α) :=
  entries.filter (·.1 != key)

/-- Change the value of a key that is present. -/
def adjust [BEq κ] (entries : List (κ × α)) (key : κ) (change : α → α) : List (κ × α) :=
  entries.map fun (other, value) => if other == key then (other, change value) else (other, value)

/-- The keys in order of first writing. -/
def keys (entries : List (κ × α)) : List κ :=
  entries.map (·.1)

variable [BEq κ] [LawfulBEq κ]

/-- A key that has been written has its value. -/
@[simp] theorem get?_put_self (entries : List (κ × α)) (key : κ) (value : α) :
    get? (put entries key value) key = some value := by
  induction entries with
  | nil => simp [put, get?]
  | cons head rest ih =>
    obtain ⟨other, old⟩ := head
    by_cases found : other = key
    · simp [put, found, get?]
    · simp only [put, beq_iff_eq, found, if_false]
      simpa [get?, List.find?_cons, found] using ih

/-- Writing one key leaves the others as they were. -/
theorem get?_put_ne (entries : List (κ × α)) {key other : κ} (value : α)
    (distinct : other ≠ key) : get? (put entries key value) other = get? entries other := by
  induction entries with
  | nil => simp [put, get?, Ne.symm distinct]
  | cons head rest ih =>
    obtain ⟨first, old⟩ := head
    by_cases found : first = key
    · simp [put, found, get?, Ne.symm distinct]
    · by_cases same : first = other
      · simp [put, get?, same]
        simp [← same, found]
      · simp only [put, beq_iff_eq, found, if_false]
        simpa [get?, List.find?_cons, same] using ih

/-- Writing a known key keeps the row of keys; writing a new one appends it. -/
theorem keys_put (entries : List (κ × α)) (key : κ) (value : α) [DecidableEq κ] :
    keys (put entries key value) =
      if key ∈ keys entries then keys entries else keys entries ++ [key] := by
  induction entries with
  | nil => simp [put, keys]
  | cons head rest ih =>
    obtain ⟨first, old⟩ := head
    by_cases found : first = key
    · simp [put, keys, found]
    · have other : ¬ key = first := fun same => found same.symm
      simp only [put, beq_iff_eq, found, if_false]
      by_cases known : key ∈ keys rest
      · rw [if_pos known] at ih
        rw [if_pos (by simpa [keys] using Or.inr (by simpa [keys] using known))]
        simpa [keys] using ih
      · rw [if_neg known] at ih
        rw [if_neg (by simpa [keys, other] using known)]
        simpa [keys] using ih

/-- The value of a key stands in an entry of the key. -/
theorem mem_of_get? {entries : List (κ × α)} {key : κ} {value : α}
    (found : get? entries key = some value) : (key, value) ∈ entries := by
  obtain ⟨⟨other, _⟩, first, rfl⟩ := Option.map_eq_some_iff.mp found
  obtain rfl : other = key := by simpa using List.find?_some first
  exact List.mem_of_find?_eq_some first

/-- Writing a key brings in no other entry. -/
theorem mem_put {entries : List (κ × α)} {key : κ} {value : α} {entry : κ × α}
    (member : entry ∈ put entries key value) : entry = (key, value) ∨ entry ∈ entries := by
  induction entries with
  | nil => exact .inl (List.mem_singleton.mp member)
  | cons head rest inductionHypothesis =>
    obtain ⟨other, old⟩ := head
    rw [put] at member
    split at member
    · next same =>
      rw [eq_of_beq same] at member
      exact (List.mem_cons.mp member).imp_right (List.mem_cons_of_mem _)
    · rcases List.mem_cons.mp member with rfl | inRest
      · exact .inr List.mem_cons_self
      · exact (inductionHypothesis inRest).imp_right (List.mem_cons_of_mem _)

/-- Writing a key keeps keys distinct. -/
theorem nodup_keys_put [DecidableEq κ] {entries : List (κ × α)} (key : κ) (value : α)
    (distinct : (keys entries).Nodup) : (keys (put entries key value)).Nodup := by
  rw [keys_put]
  split
  · exact distinct
  · next new =>
    refine List.nodup_append.mpr ⟨distinct, List.pairwise_singleton _ key, ?_⟩
    rintro old member _ last rfl
    exact new (List.mem_singleton.mp last ▸ member)

variable [DecidableEq κ]

omit [LawfulBEq κ] [DecidableEq κ] in
@[simp] theorem get?_nil (key : κ) : get? ([] : List (κ × α)) key = none := rfl

theorem get?_cons (key other : κ) (value : α) (rest : List (κ × α)) :
    get? ((key, value) :: rest) other = if other = key then some value else get? rest other := by
  by_cases same : other = key
  · simp [get?, same]
  · simp [get?, same, Ne.symm same]

/-- What can be looked up after an entry has been appended. -/
theorem get?_append_singleton (entries : List (κ × α)) (key other : κ) (value : α) :
    get? (entries ++ [(key, value)]) other =
      (get? entries other).or (if other = key then some value else none) := by
  rw [← get?_nil other, ← get?_cons]
  simp [get?, List.find?_append, Option.map_or]

/-- What can be looked up after a key has been written. -/
theorem get?_put (entries : List (κ × α)) (key other : κ) (value : α) :
    get? (put entries key value) other =
      if other = key then some value else get? entries other := by
  split
  · next same => rw [same, get?_put_self]
  · next distinct => exact get?_put_ne entries value distinct

/-- What can be looked up after one entry has been changed. -/
theorem get?_adjust (entries : List (κ × α)) (key other : κ) (change : α → α) :
    get? (adjust entries key change) other =
      if other = key then (get? entries other).map change else get? entries other := by
  induction entries with
  | nil => simp [adjust, get?]
  | cons head rest inductionHypothesis =>
    obtain ⟨first, value⟩ := head
    have tail : adjust ((first, value) :: rest) key change =
        (first, if first = key then change value else value) :: adjust rest key change := by
      by_cases same : first = key <;> simp [adjust, same]
    rw [tail, get?_cons, get?_cons, inductionHypothesis]
    by_cases here : other = first
    · subst here
      by_cases same : other = key <;> simp [same]
    · simp [here]

/-- What can be looked up after an entry has been taken away. -/
theorem get?_erase (entries : List (κ × α)) (key other : κ) :
    get? (erase entries key) other = if other = key then none else get? entries other := by
  induction entries with
  | nil => simp [erase, get?]
  | cons head rest inductionHypothesis =>
    obtain ⟨first, value⟩ := head
    by_cases same : first = key
    · have gone : erase ((first, value) :: rest) key = erase rest key := by simp [erase, same]
      rw [gone, get?_cons, inductionHypothesis, same]
      split <;> rfl
    · have kept : erase ((first, value) :: rest) key = (first, value) :: erase rest key := by
        simp [erase, same]
      rw [kept, get?_cons, get?_cons, inductionHypothesis]
      by_cases here : other = first
      · simp [here, same]
      · simp [here]

omit [DecidableEq κ] in
/-- A key stands in the row if something can be looked up under it. -/
theorem mem_keys {entries : List (κ × α)} {key : κ} :
    key ∈ keys entries ↔ (get? entries key).isSome = true := by
  simp [keys, get?]

omit [LawfulBEq κ] [DecidableEq κ] in
/-- Changing a value keeps the row of keys. -/
theorem keys_adjust (entries : List (κ × α)) (key : κ) (change : α → α) :
    keys (adjust entries key change) = keys entries := by
  simp only [keys, adjust, List.map_map]
  apply List.map_congr_left
  rintro ⟨other, value⟩ -
  simp only [Function.comp_apply]
  split <;> rfl

omit [LawfulBEq κ] [DecidableEq κ] in
/-- Taking a key away takes it out of the row. -/
theorem keys_erase (entries : List (κ × α)) (key : κ) :
    keys (erase entries key) = (keys entries).filter (· != key) := by
  simp [keys, erase, List.filter_map, Function.comp_def]

omit [DecidableEq κ] in
/-- Where no key stands twice, looking up the key of an entry gives its value. -/
theorem get?_of_mem {entries : List (κ × α)} {entry : κ × α}
    (distinct : (keys entries).Nodup) (member : entry ∈ entries) :
    get? entries entry.1 = some entry.2 := by
  induction entries with
  | nil => cases member
  | cons head rest inductionHypothesis =>
    have split : head.1 ∉ keys rest ∧ (keys rest).Nodup := List.nodup_cons.mp distinct
    rcases List.mem_cons.mp member with rfl | later
    · simp [get?]
    · have other : head.1 ≠ entry.1 := by
        intro same
        exact split.1 (same ▸ List.mem_map.mpr ⟨entry, later, rfl⟩)
      have found := inductionHypothesis split.2 later
      simpa [get?, List.find?_cons, other] using found

end TurnScript.Ordered
