import DynProto.OrderedMap
import DynProto.Value
import Mathlib

/-!
# Laws of ordered maps

A list of bindings is `Ordered` if its keys ascend strictly. Inserting keeps the order
(`ordered_insert`), and the map of an ordered list is that list (`ofList_of_ordered`). If no key
occurs twice, the map of a list is a permutation of it (`ofList_perm`), so two permutations of one
list of bindings have the same map (`ofList_eq_of_perm`).

Looking up a key after an insertion gives what was inserted for it or what was there before
(`get?_insert_self`, `get?_insert_of_ne`); where only new keys are inserted, what was there before
comes first (`get?_insertNew`). Ordered maps that agree on every key are equal (`eq_of_get?_eq`).
In the `union` of two maps the bindings of the second one count (`get?_union`).

The order of map keys is lawful (`MapKey.order_isLE_trans`, `MapKey.eq_of_order`): keys of one kind
are ordered as their kind is, and keys of different kinds by the rank of the kind.
-/

namespace DynProto

namespace OrderedMap

variable {κ α : Type} [Ord κ]

/-- The keys ascend strictly. -/
def Ordered (map : OrderedMap κ α) : Prop :=
  map.Pairwise fun a b => compare a.1 b.1 = .lt

/-- The bindings of two maps, where those of the second one count. -/
def union (map more : OrderedMap κ α) : OrderedMap κ α :=
  more.foldl (fun map binding => insert binding.1 binding.2 map) map

/-- What is in a map after an insertion was inserted or was in it before. -/
theorem mem_of_mem_insert {key : κ} {value : α} {map : OrderedMap κ α} {binding : κ × α}
    (h : binding ∈ insert key value map) : binding = (key, value) ∨ binding ∈ map := by
  induction map with
  | nil => exact .inl (List.mem_singleton.1 h)
  | cons first rest ih =>
    obtain ⟨k, v⟩ := first
    unfold insert at h
    split at h
    · exact List.mem_cons.1 h
    · rcases List.mem_cons.1 h with h | h
      · exact .inl h
      · exact .inr (List.mem_cons_of_mem _ h)
    · rcases List.mem_cons.1 h with h | h
      · exact .inr (h ▸ List.mem_cons_self)
      · exact (ih h).imp id (List.mem_cons_of_mem _)

/-- A key above the first one is below nothing that it was not below before. -/
theorem lt_of_mem_insert {k key : κ} {value : α} {map : OrderedMap κ α} {binding : κ × α}
    (hkey : compare k key = .lt) (hmap : ∀ b ∈ map, compare k b.1 = .lt)
    (h : binding ∈ insert key value map) : compare k binding.1 = .lt := by
  rcases mem_of_mem_insert h with rfl | hmem
  · exact hkey
  · exact hmap binding hmem

/-- What is in the map of a list is in the list. -/
theorem mem_of_mem_ofList {bindings : List (κ × α)} {binding : κ × α}
    (h : binding ∈ ofList bindings) : binding ∈ bindings := by
  induction bindings using List.reverseRecOn with
  | nil => exact absurd h List.not_mem_nil
  | append_singleton bindings last ih =>
    rw [ofList, List.foldl_append] at h
    rcases mem_of_mem_insert h with rfl | h
    · simp
    · exact List.mem_append_left _ (ih h)

/-- A key is not bound where every key is above it. -/
theorem get?_eq_none_of_forall_lt {key : κ} {map : OrderedMap κ α}
    (h : ∀ b ∈ map, compare key b.1 = .lt) : get? key map = none := by
  induction map with
  | nil => rfl
  | cons first rest ih =>
    obtain ⟨hfirst, hrest⟩ := List.forall_mem_cons.1 h
    simp [get?, hfirst, ih hrest]

/-! ## Distinct keys and look-ups -/

section LawfulEq

variable [Std.LawfulEqOrd κ]

/-- Inserting a key that is not there puts one binding between those that are. -/
theorem exists_insert_eq_append {key : κ} {map : OrderedMap κ α}
    (h : ∀ b ∈ map, b.1 ≠ key) (value : α) :
    ∃ front back, map = front ++ back ∧ insert key value map = front ++ (key, value) :: back := by
  induction map with
  | nil => exact ⟨[], [], rfl, rfl⟩
  | cons first rest ih =>
    obtain ⟨k, v⟩ := first
    unfold insert
    split
    · exact ⟨[], _, rfl, rfl⟩
    · rename_i heq
      exact absurd (Std.LawfulEqOrd.eq_of_compare heq).symm (h (k, v) List.mem_cons_self)
    · obtain ⟨front, back, rfl, hinsert⟩ := ih fun b hb => h b (List.mem_cons_of_mem _ hb)
      exact ⟨(k, v) :: front, back, rfl, by rw [hinsert]; rfl⟩

/-- Inserting a key that is not there adds one binding. -/
theorem insert_perm {key : κ} {value : α} {map : OrderedMap κ α}
    (h : ∀ b ∈ map, b.1 ≠ key) : (insert key value map).Perm ((key, value) :: map) := by
  obtain ⟨front, back, rfl, hinsert⟩ := exists_insert_eq_append h value
  rw [hinsert]
  exact List.perm_middle

/-- If no key occurs twice, the map of a list has the bindings of the list. -/
theorem ofList_perm {bindings : List (κ × α)} (h : (bindings.map Prod.fst).Nodup) :
    (ofList bindings).Perm bindings := by
  have hgen : ∀ map : OrderedMap κ α, (∀ b ∈ map, b.1 ∉ bindings.map Prod.fst) →
      (bindings.foldl (fun map binding => insert binding.1 binding.2 map) map).Perm
        (bindings ++ map) := by
    induction bindings with
    | nil => exact fun map _ => .refl map
    | cons first rest ih =>
      intro map hmap
      obtain ⟨hfirst, hrest⟩ := List.nodup_cons.1 h
      have hfresh : ∀ b ∈ map, b.1 ≠ first.1 :=
        fun b hb heq => hmap b hb (heq ▸ List.mem_cons_self)
      have hinsert : (insert first.1 first.2 map).Perm (first :: map) := insert_perm hfresh
      have hfold := ih hrest (insert first.1 first.2 map) fun b hb => by
        rcases List.mem_cons.1 (hinsert.mem_iff.1 hb) with rfl | hb
        · exact hfirst
        · exact fun hmem => hmap b hb (List.mem_cons_of_mem _ hmem)
      exact hfold.trans ((hinsert.append_left rest).trans List.perm_middle)
  have hall := hgen [] fun b hb => nomatch hb
  rwa [List.append_nil] at hall

/-- The keys of an ordered list are distinct. -/
theorem Ordered.nodup {bindings : List (κ × α)} (h : Ordered bindings) :
    (bindings.map Prod.fst).Nodup := by
  refine List.pairwise_map.2 (h.imp fun {a b} hlt heq => ?_)
  rw [heq, Std.ReflOrd.compare_self] at hlt
  cases hlt

/-- The key that was inserted is bound to its value. -/
@[simp] theorem get?_insert_self (key : κ) (value : α) (map : OrderedMap κ α) :
    get? key (insert key value map) = some value := by
  induction map with
  | nil => simp [insert, get?]
  | cons first rest ih =>
    obtain ⟨k, v⟩ := first
    unfold insert
    split
    · simp [get?]
    · simp [get?]
    · rename_i hgt
      simp [get?, hgt, ih]

/-- Every other key is bound to what it was bound to before. -/
theorem get?_insert_of_ne {key k : κ} (h : k ≠ key) (value : α) (map : OrderedMap κ α) :
    get? k (insert key value map) = get? k map := by
  have hne : compare k key ≠ .eq := fun heq => h (Std.LawfulEqOrd.eq_of_compare heq)
  induction map with
  | nil => simp [insert, get?, hne]
  | cons first rest ih =>
    obtain ⟨k', v⟩ := first
    unfold insert
    split
    · simp [get?, hne]
    · rename_i heq
      obtain rfl := Std.LawfulEqOrd.eq_of_compare heq
      simp [get?, hne]
    · simp only [get?, ih]

/-- A key that is bound already keeps its value; otherwise the key that was inserted is bound to
the new one. -/
theorem get?_insertNew [DecidableEq κ] (key k : κ) (value : α) (map : OrderedMap κ α) :
    get? k (insertNew key value map)
      = (get? k map).or (if k = key then some value else none) := by
  unfold insertNew
  rcases hbound : get? key map with _ | bound
  · by_cases hkey : k = key
    · subst hkey
      simp [hbound]
    · simp [get?_insert_of_ne hkey, hkey]
  · by_cases hkey : k = key
    · subst hkey
      simp [hbound]
    · simp [hkey]

/-- In an ordered map a key is bound to a value exactly if the binding is in the map. -/
theorem get?_eq_some_iff {key : κ} {value : α} {map : OrderedMap κ α} (h : Ordered map) :
    get? key map = some value ↔ (key, value) ∈ map := by
  induction map with
  | nil => simp [get?]
  | cons first rest ih =>
    obtain ⟨k, v⟩ := first
    obtain ⟨hfirst, hrest⟩ := List.pairwise_cons.1 h
    by_cases hkey : key = k
    · subst hkey
      have hnot : (key, value) ∉ rest := fun hmem => by
        have hlt := hfirst _ hmem
        rw [Std.ReflOrd.compare_self] at hlt
        cases hlt
      simp [get?, hnot, eq_comm]
    · have hne : compare key k ≠ .eq := fun heq => hkey (Std.LawfulEqOrd.eq_of_compare heq)
      simp [get?, hne, ih hrest, hkey]

/-- A key is bound to what the second map binds it to, otherwise to what the first one does. -/
theorem get?_union (map : OrderedMap κ α) {more : OrderedMap κ α} (h : Ordered more) (key : κ) :
    get? key (union map more) = (get? key more).or (get? key map) := by
  induction more generalizing map with
  | nil => rfl
  | cons first rest ih =>
    obtain ⟨k, v⟩ := first
    obtain ⟨hfirst, hrest⟩ := List.pairwise_cons.1 h
    show get? key (union (insert k v map) rest) = _
    rw [ih _ hrest]
    by_cases hkey : key = k
    · subst hkey
      simp [get?, get?_eq_none_of_forall_lt hfirst]
    · have hne : compare key k ≠ .eq := fun heq => hkey (Std.LawfulEqOrd.eq_of_compare heq)
      simp [get?, hne, get?_insert_of_ne hkey]

end LawfulEq

/-! ## Bindings in ascending order -/

section Trans

variable [Std.TransOrd κ]

/-- A key above all others goes to the end. -/
theorem insert_of_forall_lt {key : κ} {value : α} {map : OrderedMap κ α}
    (h : ∀ b ∈ map, compare b.1 key = .lt) : insert key value map = map ++ [(key, value)] := by
  induction map with
  | nil => rfl
  | cons first rest ih =>
    obtain ⟨k, v⟩ := first
    have hgt : compare key k = .gt := Std.OrientedCmp.gt_of_lt (h (k, v) List.mem_cons_self)
    have hrest := ih fun b hb => h b (List.mem_cons_of_mem _ hb)
    simp only [insert, hgt, hrest, List.cons_append]

/-- Inserting bindings in ascending order appends them. -/
theorem foldl_insert_of_ordered (front : List (κ × α)) {bindings : List (κ × α)}
    (h : Ordered (front ++ bindings)) :
    bindings.foldl (fun map binding => insert binding.1 binding.2 map) front
      = front ++ bindings := by
  induction bindings generalizing front with
  | nil => simp
  | cons first rest ih =>
    have hlt : ∀ b ∈ front, compare b.1 first.1 = .lt :=
      fun b hb => (List.pairwise_append.1 h).2.2 b hb first List.mem_cons_self
    rw [List.foldl_cons, insert_of_forall_lt hlt, ih]
    · simp
    · simpa using h

/-- The map of an ordered list is that list. -/
theorem ofList_of_ordered {bindings : List (κ × α)} (h : Ordered bindings) :
    ofList bindings = bindings :=
  foldl_insert_of_ordered [] h

/-- Ordered lists with the same bindings are equal. -/
theorem eq_of_perm_of_ordered {a b : List (κ × α)} (ha : Ordered a) (hb : Ordered b)
    (h : a.Perm b) : a = b := by
  refine h.eq_of_pairwise (fun x y _ _ hxy hyx => ?_) ha hb
  exact absurd hyx (Std.OrientedCmp.not_lt_of_lt hxy)

end Trans

/-! ## Ordered maps -/

section Lawful

variable [Std.TransOrd κ] [Std.LawfulEqOrd κ]

/-- Inserting keeps the order. -/
theorem ordered_insert (key : κ) (value : α) {map : OrderedMap κ α} (h : Ordered map) :
    Ordered (insert key value map) := by
  induction map with
  | nil => exact List.pairwise_singleton _ _
  | cons first rest ih =>
    obtain ⟨k, v⟩ := first
    obtain ⟨hfirst, hrest⟩ := List.pairwise_cons.1 h
    unfold insert
    split
    · rename_i hlt
      refine List.pairwise_cons.2 ⟨fun b hb => ?_, h⟩
      rcases List.mem_cons.1 hb with rfl | hb
      · exact hlt
      · exact Std.TransCmp.lt_trans hlt (hfirst b hb)
    · rename_i heq
      obtain rfl := Std.LawfulEqOrd.eq_of_compare heq
      exact List.pairwise_cons.2 ⟨hfirst, hrest⟩
    · rename_i hgt
      refine List.pairwise_cons.2 ⟨fun b hb => ?_, ih hrest⟩
      exact lt_of_mem_insert (Std.OrientedCmp.lt_of_gt hgt) hfirst hb

/-- The map of a list is ordered. -/
theorem ordered_ofList (bindings : List (κ × α)) : Ordered (ofList bindings) := by
  have hgen : ∀ map : OrderedMap κ α, Ordered map →
      Ordered (bindings.foldl (fun map binding => insert binding.1 binding.2 map) map) := by
    induction bindings with
    | nil => exact fun _ h => h
    | cons first rest ih => exact fun map h => ih _ (ordered_insert first.1 first.2 h)
  exact hgen [] List.Pairwise.nil

/-- Lists with the same bindings, no key of which occurs twice, have the same map. -/
theorem ofList_eq_of_perm {a b : List (κ × α)} (h : a.Perm b) (hkeys : (b.map Prod.fst).Nodup) :
    ofList a = ofList b := by
  have hkeys' : (a.map Prod.fst).Nodup := (h.map Prod.fst).nodup_iff.2 hkeys
  exact eq_of_perm_of_ordered (ordered_ofList a) (ordered_ofList b)
    ((ofList_perm hkeys').trans (h.trans (ofList_perm hkeys).symm))

/-- Ordered maps that bind the same keys to the same values are equal. -/
theorem eq_of_get?_eq {a b : OrderedMap κ α} (ha : Ordered a) (hb : Ordered b)
    (h : ∀ key, get? key a = get? key b) : a = b := by
  refine eq_of_perm_of_ordered ha hb ((List.perm_ext_iff_of_nodup ?_ ?_).2 fun binding => ?_)
  · exact ha.nodup.of_map
  · exact hb.nodup.of_map
  · obtain ⟨key, value⟩ := binding
    rw [← get?_eq_some_iff ha, ← get?_eq_some_iff hb, h key]

/-- Different keys are inserted in either order. -/
theorem insert_comm {key k : κ} (h : key ≠ k) (value v : α) {map : OrderedMap κ α}
    (hmap : Ordered map) :
    insert key value (insert k v map) = insert k v (insert key value map) := by
  refine eq_of_get?_eq (ordered_insert _ _ (ordered_insert _ _ hmap))
    (ordered_insert _ _ (ordered_insert _ _ hmap)) fun other => ?_
  by_cases hkey : other = key
  · subst hkey
    rw [get?_insert_self, get?_insert_of_ne h, get?_insert_self]
  · by_cases hk : other = k
    · subst hk
      rw [get?_insert_of_ne hkey, get?_insert_self, get?_insert_self]
    · rw [get?_insert_of_ne hkey, get?_insert_of_ne hk, get?_insert_of_ne hk,
        get?_insert_of_ne hkey]

/-- A binding in front of others with different keys may be inserted last. -/
theorem ofList_middle {key : κ} {value : α} {front back : List (κ × α)}
    (h : ∀ b ∈ back, b.1 ≠ key) :
    ofList (front ++ (key, value) :: back) = insert key value (ofList (front ++ back)) := by
  induction back using List.reverseRecOn with
  | nil =>
    rw [ofList, List.foldl_append, List.append_nil]
    rfl
  | append_singleton back last ih =>
    have hback : ∀ b ∈ back, b.1 ≠ key := fun b hb => h b (List.mem_append_left _ hb)
    have hlast : last.1 ≠ key := h last (by simp)
    have hadd : ∀ bindings : List (κ × α),
        ofList (bindings ++ [last]) = insert last.1 last.2 (ofList bindings) := by
      intro bindings
      rw [ofList, List.foldl_append]
      rfl
    rw [← List.cons_append, ← List.append_assoc, ← List.append_assoc, hadd, hadd, ih hback,
      insert_comm hlast _ _ (ordered_ofList _)]

/-- A union is ordered. -/
theorem ordered_union {map : OrderedMap κ α} (h : Ordered map) (more : OrderedMap κ α) :
    Ordered (union map more) := by
  unfold union
  induction more generalizing map with
  | nil => exact h
  | cons first rest ih => exact ih (ordered_insert first.1 first.2 h)

/-- Bindings are added in any order, as long as the last one of a key is added last. -/
theorem union_ofList {map : OrderedMap κ α} (h : Ordered map) (bindings : List (κ × α)) :
    union map (ofList bindings) = union map bindings := by
  induction bindings using List.reverseRecOn with
  | nil => rfl
  | append_singleton bindings last ih =>
    obtain ⟨k, v⟩ := last
    have hlast : ofList (bindings ++ [(k, v)]) = insert k v (ofList bindings) := by
      rw [ofList, List.foldl_append]
      rfl
    have hunion : union map (bindings ++ [(k, v)]) = insert k v (union map bindings) := by
      rw [union, List.foldl_append]
      rfl
    have hordered := ordered_insert k v (ordered_ofList bindings)
    rw [hlast, hunion, ← ih]
    refine eq_of_get?_eq (ordered_union h _) (ordered_insert k v (ordered_union h _)) fun key => ?_
    rw [get?_union map hordered]
    by_cases hkey : key = k
    · subst hkey
      simp
    · rw [get?_insert_of_ne hkey, get?_insert_of_ne hkey, get?_union map (ordered_ofList bindings)]

end Lawful

end OrderedMap

/-! ## The order of map keys -/

namespace MapKey

/-- Keys of different kinds are ordered by the kind. -/
theorem order_of_rank_ne {a b : MapKey} (h : a.rank ≠ b.rank) :
    order a b = compare a.rank b.rank := by
  cases a <;> cases b <;> first | rfl | exact absurd rfl h

/-- Comparing the other way round turns the answer round. -/
theorem order_swap (a b : MapKey) : order a b = (order b a).swap := by
  cases a <;> cases b <;> exact Std.OrientedOrd.eq_swap

/-- A key is not below one of a lower kind. -/
theorem rank_le_of_isLE {a b : MapKey} (h : (order a b).isLE) : a.rank ≤ b.rank := by
  by_cases hrank : a.rank = b.rank
  · exact Nat.le_of_eq hrank
  · rwa [order_of_rank_ne hrank, Nat.isLE_compare] at h

/-- The order is transitive. -/
theorem order_isLE_trans {a b c : MapKey} (hab : (order a b).isLE) (hbc : (order b c).isLE) :
    (order a c).isLE := by
  have hrank := rank_le_of_isLE hab
  have hrank' := rank_le_of_isLE hbc
  by_cases h : a.rank = c.rank
  · have hmid : a.rank = b.rank := by omega
    -- all three keys are of one kind, whose own order is transitive
    cases a <;> cases b <;> cases hmid <;> cases c <;>
      first | exact Std.TransOrd.isLE_trans hab hbc | cases h
  · rw [order_of_rank_ne h, Nat.isLE_compare]
    omega

/-- Only equal keys compare as equal. -/
theorem eq_of_order {a b : MapKey} (h : order a b = .eq) : a = b := by
  by_cases hrank : a.rank = b.rank
  · cases a <;> cases b <;>
      first | exact congrArg _ (Std.LawfulEqOrd.eq_of_compare h) | cases hrank
  · rw [order_of_rank_ne hrank] at h
    exact absurd (Std.LawfulEqOrd.eq_of_compare h) hrank

/-- A key compares as equal to itself. -/
theorem order_self (key : MapKey) : order key key = .eq := by
  cases key <;> exact Std.ReflOrd.compare_self

instance : Std.TransOrd MapKey where
  eq_swap := order_swap _ _
  isLE_trans := order_isLE_trans

instance : Std.LawfulEqOrd MapKey where
  compare_self := order_self _
  eq_of_compare := eq_of_order

end MapKey

end DynProto
