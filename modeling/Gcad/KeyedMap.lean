import Mathlib

/-!
# Finite maps with unordered iteration

An unordered map is an association list with distinct keys. Filtering,
inserting and erasing are described by what they do to lookups and to the
number of entries. Iteration order is left open: an `IterationOrder` is any
enumeration of the entries, and the least entry found by a scan is least
whatever the enumeration. A loop that overwrites a field keeps the last
value, and a loop that appends keeps all of them.
-/

namespace Gcad.KeyedMap

variable {α β : Type*}

/-- A finite map from keys to values. -/
abbrev Table (α β : Type*) := AList fun _ : α => β

/-- Number of entries. -/
def count (m : Table α β) : ℕ := m.entries.length

/-- Keep the entries that satisfy a predicate. -/
def retain (p : β → Bool) (m : Table α β) : Table α β :=
  ⟨m.entries.filter fun e => p e.2,m.nodupKeys.sublist List.filter_sublist⟩

/-- Change every value. -/
def mapValues (f : β → β) (m : Table α β) : Table α β :=
  ⟨m.entries.map fun e => ⟨e.1,f e.2⟩,by
    rw [List.NodupKeys,List.keys,List.map_map]
    exact m.nodupKeys⟩

/-- Number of entries, seen through the keys. -/
theorem count_eq_keys (m : Table α β) : count m=m.keys.length :=
  (List.length_map _).symm

/-- Filtering never adds entries. -/
theorem count_retain_le (p : β → Bool) (m : Table α β) : count (retain p m) ≤ count m :=
  List.length_filter_le _ _

section Lookup

variable [DecidableEq α]

/-- A lookup after filtering is a filtered lookup. -/
theorem lookup_retain (p : β → Bool) (m : Table α β) (a : α) :
    (retain p m).lookup a=(m.lookup a).filter p := by
  apply Option.ext
  intro b
  change b ∈ (retain p m).lookup a ↔ b ∈ (m.lookup a).filter p
  rw [AList.mem_lookup_iff,Option.mem_filter_iff,AList.mem_lookup_iff]
  exact List.mem_filter

/-- A lookup after changing the values is a changed lookup. -/
theorem lookup_mapValues (f : β → β) (m : Table α β) (a : α) :
    (mapValues f m).lookup a=(m.lookup a).map f := by
  apply Option.ext
  intro b
  change b ∈ (mapValues f m).lookup a ↔ b ∈ (m.lookup a).map f
  rw [AList.mem_lookup_iff,Option.mem_map]
  constructor
  · intro h
    obtain ⟨⟨k,v⟩,member,heq⟩ := List.mem_map.mp h
    cases heq
    exact ⟨v,AList.mem_lookup_iff.mpr member,rfl⟩
  · rintro ⟨v,member,rfl⟩
    exact List.mem_map.mpr ⟨⟨a,v⟩,AList.mem_lookup_iff.mp member,rfl⟩

/-- Overwriting an existing key keeps the number of entries. -/
theorem count_insert_of_mem {a : α} {m : Table α β} (h : a ∈ m) (b : β) :
    count (m.insert a b)=count m := by
  have hpos := List.length_pos_of_mem (AList.mem_keys.mp h)
  rw [count_eq_keys,count_eq_keys,AList.keys_insert,List.length_cons,
    List.length_erase_of_mem (AList.mem_keys.mp h)]
  omega

/-- Any insertion adds at most one entry. -/
theorem count_insert_le (a : α) (b : β) (m : Table α β) :
    count (m.insert a b) ≤ count m+1 := by
  rw [count_eq_keys,count_eq_keys,AList.keys_insert,List.length_cons]
  have h := (List.erase_sublist (a:=a) (l:=m.keys)).length_le
  omega

/-- Erasing an existing key removes one entry. -/
theorem count_erase_of_mem {a : α} {m : Table α β} (h : a ∈ m) :
    count (m.erase a)+1=count m := by
  have hpos := List.length_pos_of_mem (AList.mem_keys.mp h)
  rw [count_eq_keys,count_eq_keys,AList.keys_erase,
    List.length_erase_of_mem (AList.mem_keys.mp h)]
  omega

/-- A lookup that survives an erasure was there before. -/
theorem lookup_of_lookup_erase {a k : α} {b : β} {m : Table α β}
    (h : (m.erase k).lookup a=some b) : m.lookup a=some b := by
  rcases eq_or_ne a k with rfl | hne
  · rw [AList.lookup_erase] at h
    cases h
  · rwa [AList.lookup_erase_ne hne] at h

end Lookup

/-- Some enumeration of the entries of a map, as an unordered container may
choose it. -/
structure IterationOrder (α β : Type*) where
  /-- The enumeration of a list of entries. -/
  order : List ((_ : α)×β) → List ((_ : α)×β)
  /-- Every entry is enumerated exactly once. -/
  perm : ∀ entries, (order entries).Perm entries

/-- Enumeration in storage order. -/
def IterationOrder.storage (α β : Type*) : IterationOrder α β := ⟨id,fun _ => .refl _⟩

/-- Scan for the first entry whose measure no earlier entry undercuts. -/
def least (measure : β → ℤ) : List ((_ : α)×β) → Option ((_ : α)×β)
  | [] => none
  | first::rest =>
    some (rest.foldl (fun best e => if measure e.2 < measure best.2 then e else best) first)

/-- The scan returns one of the entries. -/
theorem least_mem {measure : β → ℤ} {entries : List ((_ : α)×β)} {e : (_ : α)×β}
    (h : least measure entries=some e) : e ∈ entries := by
  cases entries with
  | nil => cases h
  | cons first rest =>
    obtain rfl := Option.some.inj h
    suffices hfold : ∀ (rest : List ((_ : α)×β)) (best : (_ : α)×β),
        rest.foldl (fun best e => if measure e.2 < measure best.2 then e else best) best
          ∈ best::rest from hfold rest first
    intro rest
    induction rest with
    | nil => exact fun best => List.mem_singleton_self _
    | cons e rest ih =>
      intro best
      rw [List.foldl_cons]
      split
      · exact List.mem_cons_of_mem _ (ih e)
      · rcases List.mem_cons.mp (ih best) with hb | hb
        · rw [hb]
          exact List.mem_cons_self
        · exact List.mem_cons_of_mem _ (List.mem_cons_of_mem _ hb)

/-- A scan of a nonempty map finds an entry. -/
theorem least_isSome (measure : β → ℤ) {entries : List ((_ : α)×β)} (h : entries≠[]) :
    ∃ e, least measure entries=some e := by
  cases entries with
  | nil => exact absurd rfl h
  | cons first rest => exact ⟨_,rfl⟩

/-- Among entries of different keys only one can satisfy a predicate that
asks for a key. -/
theorem length_filter_key {entries : List ((_ : α)×β)} (nodup : (entries.map Sigma.fst).Nodup)
    {p : (_ : α)×β → Bool} {entry : (_ : α)×β} (hmem : entry ∈ entries) (hp : p entry=true)
    (hkey : ∀ e,p e=true → e.1=entry.1) : (entries.filter p).length=1 := by
  have hall : ∀ e ∈ entries.filter p,e=entry := by
    intro e he
    obtain ⟨hin,hpe⟩ := List.mem_filter.mp he
    exact List.inj_on_of_nodup_map nodup hin hmem (hkey e hpe)
  have hnodup : (entries.filter p).Nodup := (List.Nodup.of_map _ nodup).filter _
  have hone := List.eq_replicate_iff.mpr ⟨rfl,hall⟩
  rw [hone,List.nodup_replicate] at hnodup
  have hpos := List.length_pos_of_mem (List.mem_filter.mpr ⟨hmem,hp⟩)
  omega

section Folds

variable {σ ε γ : Type*} (step : σ → ε → σ)

/-- A field that entries overwrite ends with the last value written. -/
theorem foldl_last (proj : σ → γ) (value : ε → Option γ)
    (hstep : ∀ s e,proj (step s e)=(value e).getD (proj s)) (es : List ε) (s : σ) :
    proj (es.foldl step s)=(es.filterMap value).getLast?.getD (proj s) := by
  induction es generalizing s with
  | nil => rfl
  | cons e es ih =>
    rw [List.foldl_cons,ih,hstep,List.filterMap_cons]
    cases hv : value e with
    | none => rfl
    | some v => rw [List.getLast?_cons,Option.getD_some,Option.getD_some]

/-- A list to which entries append ends with all their values. -/
theorem foldl_collect (proj : σ → List γ) (value : ε → Option γ)
    (hstep : ∀ s e,proj (step s e)=proj s++(value e).toList) (es : List ε) (s : σ) :
    proj (es.foldl step s)=proj s++es.filterMap value := by
  induction es generalizing s with
  | nil => rw [List.foldl_nil,List.filterMap_nil,List.append_nil]
  | cons e es ih =>
    rw [List.foldl_cons,ih,hstep,List.append_assoc,List.filterMap_cons]
    cases hv : value e with
    | none => rfl
    | some v => rfl

end Folds

end Gcad.KeyedMap
