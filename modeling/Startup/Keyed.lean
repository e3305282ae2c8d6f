/-!
# Entries in the order of their keys

A list of entries, each under a text, at most one under a key and in ascending order of the keys.
Texts are compared character by character, which is the order of their UTF-8 bytes.
-/

namespace Startup.Keyed

variable {α β : Type}

def find? (key : String) (entries : List (String × α)) : Option α :=
  (entries.find? fun entry => entry.1 == key).map Prod.snd

def insert (key : String) (value : α) : List (String × α) → List (String × α)
  | [] => [(key, value)]
  | (k, v) :: rest =>
    if key < k then (key, value) :: (k, v) :: rest
    else if key = k then (key, value) :: rest
    else (k, v) :: insert key value rest

/-- Later pairs replace earlier ones of the same key. -/
def insertAll (pairs entries : List (String × α)) : List (String × α) :=
  pairs.foldl (fun entries (key, value) => insert key value entries) entries

def ofPairs (pairs : List (String × α)) : List (String × α) :=
  insertAll pairs []

def Ordered (entries : List (String × α)) : Prop :=
  entries.Pairwise fun a b => a.1 < b.1

theorem ordered_nil : Ordered ([] : List (String × α)) :=
  List.Pairwise.nil

@[simp] theorem find?_nil (key : String) : find? key ([] : List (String × α)) = none := rfl

theorem find?_cons (key k : String) (v : α) (rest : List (String × α)) :
    find? key ((k, v) :: rest) = if k = key then some v else find? key rest := by
  by_cases h : k = key <;> simp [find?, h]

theorem mem_of_mem_insert {key : String} {value : α} {entries : List (String × α)}
    {entry : String × α} (h : entry ∈ insert key value entries) :
    entry = (key, value) ∨ entry ∈ entries := by
  induction entries with
  | nil => simpa [insert] using h
  | cons head rest ih =>
    obtain ⟨k, v⟩ := head
    simp only [insert] at h
    split at h
    · simpa using h
    · split at h
      · rcases List.mem_cons.mp h with h | h
        · exact .inl h
        · exact .inr (List.mem_cons_of_mem _ h)
      · rcases List.mem_cons.mp h with h | h
        · exact .inr (h ▸ List.mem_cons_self)
        · exact (ih h).imp_right (List.mem_cons_of_mem _)

theorem lt_of_not_lt_of_ne {a b : String} (h : ¬ a < b) (hne : a ≠ b) : b < a := by
  rcases String.le_total b a with hle | hle
  · rcases Decidable.em (b < a) with hlt | hlt
    · exact hlt
    · have hab : a ≤ b := Decidable.not_not.mp fun hn => hlt (String.not_le.mp hn)
      exact absurd (String.le_antisymm hab hle) hne
  · have hba : b ≤ a := Decidable.not_not.mp fun hn => h (String.not_le.mp hn)
    exact absurd (String.le_antisymm hle hba) hne

theorem Ordered.insert {key : String} {value : α} {entries : List (String × α)}
    (h : Ordered entries) : Ordered (Keyed.insert key value entries) := by
  induction entries with
  | nil => simp [Keyed.insert, Ordered]
  | cons head rest ih =>
    obtain ⟨k, v⟩ := head
    obtain ⟨hhead, hrest⟩ := List.pairwise_cons.mp h
    simp only [Keyed.insert]
    split
    · rename_i hlt
      refine List.pairwise_cons.mpr ⟨fun entry hentry => ?_, h⟩
      rcases List.mem_cons.mp hentry with rfl | hmem
      · exact hlt
      · exact String.lt_trans hlt (hhead entry hmem)
    · split
      · rename_i heq
        exact List.pairwise_cons.mpr ⟨fun entry hentry => heq ▸ hhead entry hentry, hrest⟩
      · rename_i hlt hne
        refine List.pairwise_cons.mpr ⟨fun entry hentry => ?_, ih hrest⟩
        rcases mem_of_mem_insert hentry with rfl | hmem
        · exact lt_of_not_lt_of_ne hlt hne
        · exact hhead entry hmem

theorem Ordered.insertAll {pairs entries : List (String × α)} (h : Ordered entries) :
    Ordered (Keyed.insertAll pairs entries) := by
  induction pairs generalizing entries with
  | nil => exact h
  | cons pair pairs ih => exact ih h.insert

theorem find?_insert (key other : String) (value : α) (entries : List (String × α)) :
    find? other (insert key value entries) =
      if other = key then some value else find? other entries := by
  induction entries with
  | nil => simp [insert, find?_cons, eq_comm]
  | cons head rest ih =>
    obtain ⟨k, v⟩ := head
    simp only [insert]
    split
    · simp only [find?_cons, eq_comm (a := other)]
    · split
      · rename_i heq
        subst heq
        simp only [find?_cons, eq_comm (a := other)]
        split <;> rfl
      · rename_i hne
        rw [find?_cons, ih, find?_cons]
        split
        · rename_i hk
          rw [if_neg (fun h => hne (h.symm.trans hk.symm))]
        · rfl

theorem find?_eq_none_of_forall_ne {key : String} {entries : List (String × α)}
    (h : ∀ entry ∈ entries, entry.1 ≠ key) : find? key entries = none := by
  simpa [find?, List.find?_eq_none] using h

theorem mem_of_find?_eq_some {key : String} {value : α} {entries : List (String × α)}
    (h : find? key entries = some value) : (key, value) ∈ entries := by
  obtain ⟨⟨k, v⟩, hfind, rfl⟩ := Option.map_eq_some_iff.mp h
  have hk : k = key := by simpa using List.find?_some hfind
  exact hk ▸ List.mem_of_find?_eq_some hfind

theorem Ordered.find?_eq_some_iff {entries : List (String × α)} (h : Ordered entries)
    {key : String} {value : α} : find? key entries = some value ↔ (key, value) ∈ entries := by
  refine ⟨mem_of_find?_eq_some, fun hmem => ?_⟩
  induction entries with
  | nil => simp at hmem
  | cons head rest ih =>
    obtain ⟨k, v⟩ := head
    obtain ⟨hhead, hrest⟩ := List.pairwise_cons.mp h
    rw [find?_cons]
    rcases List.mem_cons.mp hmem with heq | hmem
    · cases heq
      simp
    · have hlt : k < key := hhead _ hmem
      rw [if_neg fun hk : k = key => String.lt_irrefl key (hk ▸ hlt)]
      exact ih hrest hmem

theorem Ordered.ext {a b : List (String × α)} (ha : Ordered a) (hb : Ordered b)
    (h : ∀ key, find? key a = find? key b) : a = b := by
  induction a generalizing b with
  | nil =>
    cases b with
    | nil => rfl
    | cons head rest =>
      obtain ⟨k, v⟩ := head
      have := h k
      simp [find?_cons] at this
  | cons head rest ih =>
    obtain ⟨k, v⟩ := head
    cases b with
    | nil =>
      have := h k
      simp [find?_cons] at this
    | cons head' rest' =>
      obtain ⟨k', v'⟩ := head'
      obtain ⟨hhead, hrest⟩ := List.pairwise_cons.mp ha
      obtain ⟨hhead', hrest'⟩ := List.pairwise_cons.mp hb
      have hk : k = k' := by
        rcases Decidable.em (k = k') with heq | hne
        · exact heq
        · have f1 : find? k ((k, v) :: rest) = some v := by simp [find?_cons]
          have f2 : find? k' ((k', v') :: rest') = some v' := by simp [find?_cons]
          have h1 := mem_of_find?_eq_some ((h k).symm.trans f1)
          have h2 := mem_of_find?_eq_some ((h k').trans f2)
          have l1 : k' < k := by
            rcases List.mem_cons.mp h1 with heq | hmem
            · exact absurd (Prod.mk.inj heq).1 hne
            · exact hhead' _ hmem
          have l2 : k < k' := by
            rcases List.mem_cons.mp h2 with heq | hmem
            · exact absurd (Prod.mk.inj heq).1.symm hne
            · exact hhead _ hmem
          exact absurd l2 (String.lt_asymm l1)
      subst hk
      have hv : v = v' := by simpa [find?_cons] using h k
      subst hv
      rw [ih hrest hrest' fun key => ?_]
      have hkey := h key
      rw [find?_cons, find?_cons] at hkey
      split at hkey
      · rename_i heq
        subst heq
        have hmissing : find? k rest = none := find?_eq_none_of_forall_ne fun e he hek =>
          String.lt_irrefl k (by simpa [hek] using hhead e he)
        have hmissing' : find? k rest' = none := find?_eq_none_of_forall_ne fun e he hek =>
          String.lt_irrefl k (by simpa [hek] using hhead' e he)
        rw [hmissing, hmissing']
      · exact hkey

/-- The last value of a key counts, and a key without one keeps what it had. -/
theorem find?_insertAll (key : String) (pairs entries : List (String × α)) :
    find? key (insertAll pairs entries) =
      (find? key pairs.reverse).or (find? key entries) := by
  induction pairs generalizing entries with
  | nil => rfl
  | cons pair pairs ih =>
    obtain ⟨k, v⟩ := pair
    have hStep : insertAll ((k, v) :: pairs) entries = insertAll pairs (insert k v entries) := rfl
    rw [hStep, ih, find?_insert, List.reverse_cons]
    simp only [find?, List.find?_append, Option.map_or]
    cases List.find? (fun entry => entry.1 == key) pairs.reverse with
    | some entry => simp
    | none =>
      by_cases h : k = key
      · simp [h]
      · simp [h, Ne.symm h]

/-- No key has two values. -/
def Single (pairs : List (String × α)) : Prop :=
  ∀ key a b, (key, a) ∈ pairs → (key, b) ∈ pairs → a = b

theorem find?_isSome_of_mem {key : String} {value : α} {pairs : List (String × α)}
    (h : (key, value) ∈ pairs) : ∃ found, find? key pairs = some found := by
  cases hFound : find? key pairs with
  | some found => exact ⟨found, rfl⟩
  | none =>
    have hOther := List.find?_eq_none.mp (Option.map_eq_none_iff.mp hFound) _ h
    simp at hOther

theorem Single.find?_eq_some_iff {pairs : List (String × α)} (h : Single pairs) {key : String}
    {value : α} : find? key pairs = some value ↔ (key, value) ∈ pairs := by
  constructor
  · exact mem_of_find?_eq_some
  · intro hMem
    obtain ⟨found, hFound⟩ := find?_isSome_of_mem hMem
    rw [hFound, h key found value (mem_of_find?_eq_some hFound) hMem]

theorem Single.find?_ofPairs_eq_some_iff {pairs : List (String × α)} (h : Single pairs)
    {key : String} {value : α} : find? key (ofPairs pairs) = some value ↔ (key, value) ∈ pairs := by
  have hReverse : Single pairs.reverse := by
    intro key a b hA hB
    exact h key a b (List.mem_reverse.mp hA) (List.mem_reverse.mp hB)
  rw [ofPairs, find?_insertAll, find?_nil, Option.or_none, hReverse.find?_eq_some_iff,
    List.mem_reverse]

theorem Ordered.single {entries : List (String × α)} (h : Ordered entries) : Single entries := by
  intro key a b hA hB
  have hFirst := h.find?_eq_some_iff.mpr hA
  rw [h.find?_eq_some_iff.mpr hB] at hFirst
  exact (Option.some.inj hFirst).symm

theorem Ordered.insert_eq_self {entries : List (String × α)} (h : Ordered entries) {key : String}
    {value : α} (hFind : find? key entries = some value) :
    Keyed.insert key value entries = entries := by
  apply h.insert.ext h
  intro other
  rw [find?_insert]
  split
  · rename_i hOther
    rw [hOther, hFind]
  · rfl

/-- What comes before an entry of a list is in front of it there. -/
theorem Ordered.mem_before_of_lt {entry next : String × α} {before after : List (String × α)}
    (h : Ordered (before ++ next :: after)) (hMem : entry ∈ before ++ next :: after)
    (hLess : entry.1 < next.1) : entry ∈ before := by
  rcases List.mem_append.mp hMem with hMem | hMem
  · exact hMem
  · obtain ⟨hNext, -⟩ := List.pairwise_cons.mp (List.pairwise_append.mp h).2.1
    rcases List.mem_cons.mp hMem with rfl | hMem
    · exact absurd hLess (String.lt_irrefl _)
    · exact absurd hLess (String.lt_asymm (hNext entry hMem))

theorem ordered_ofPairs (pairs : List (String × α)) : Ordered (ofPairs pairs) :=
  ordered_nil.insertAll

theorem mem_of_mem_ofPairs {pairs : List (String × α)} {entry : String × α}
    (h : entry ∈ ofPairs pairs) : entry ∈ pairs := by
  have hFind := (ordered_ofPairs pairs).find?_eq_some_iff.mpr h
  rw [ofPairs, find?_insertAll, find?_nil, Option.or_none] at hFind
  exact List.mem_reverse.mp (mem_of_find?_eq_some hFind)

theorem ofPairs_ne_nil {pairs : List (String × α)} (h : pairs ≠ []) : ofPairs pairs ≠ [] := by
  intro hNone
  obtain ⟨entry, hEntry⟩ := List.exists_mem_of_ne_nil pairs h
  obtain ⟨found, hFound⟩ := find?_isSome_of_mem (List.mem_reverse.mpr hEntry)
  have hFind := find?_insertAll entry.1 pairs []
  rw [← ofPairs, hNone, hFound] at hFind
  cases hFind

theorem find?_map {key : String} (f : α → β) (entries : List (String × α)) :
    find? key (entries.map fun entry => (entry.1, f entry.2)) = (find? key entries).map f := by
  induction entries with
  | nil => rfl
  | cons head rest ih =>
    rw [List.map_cons, find?_cons, ih, find?_cons]
    split <;> rfl

theorem find?_filter (p : String → Bool) (key : String) (entries : List (String × α)) :
    find? key (entries.filter fun entry => p entry.1) =
      if p key then find? key entries else none := by
  induction entries with
  | nil => simp
  | cons head rest ih =>
    obtain ⟨k, v⟩ := head
    rw [List.filter_cons, find?_cons]
    by_cases hKey : k = key
    · subst hKey
      cases hKept : p k <;> simp [ih, find?_cons, hKept]
    · cases hKept : p k <;> simp [ih, find?_cons, hKey]

theorem Ordered.map {entries : List (String × α)} (h : Ordered entries) (f : α → β) :
    Ordered (entries.map fun entry => (entry.1, f entry.2)) :=
  List.pairwise_map.mpr h

def keys (entries : List (String × α)) : List String :=
  entries.map Prod.fst

theorem find?_eq_none_iff {key : String} {entries : List (String × α)} :
    find? key entries = none ↔ key ∉ keys entries := by
  constructor
  · intro hNone hKey
    obtain ⟨⟨other, value⟩, hMem, rfl⟩ := List.mem_map.mp hKey
    obtain ⟨found, hFound⟩ := find?_isSome_of_mem hMem
    rw [hNone] at hFound
    cases hFound
  · intro hKey
    exact find?_eq_none_of_forall_ne fun entry hEntry hSame =>
      hKey (hSame ▸ List.mem_map_of_mem hEntry)

end Startup.Keyed
