import DynProto.Wire.Reader
import Mathlib

/-!
# Lists gone through with computations that may fail

What is known of a list when each of its elements was computed (`mapM_eq_ok_iff`), and of a state
when each element of a list changed it: what every step preserves, the whole run preserves
(`foldlM_preserves`), where a run stops, one of its steps does (`foldlM_eq_error_iff`), what every
step does as another one does, the run does as another one (`foldlM_simulates`, and `foldlM_image`
where errors count as well), and steps that either change the state by a function or stop with one
and the same error do so together (`foldlM_guarded`, and `mapM_guarded` for computations of
elements).
-/

namespace DynProto

open Wire

variable {α β σ ε : Type}

/-- A result that is changed by a function succeeds where it did. -/
theorem except_map_eq_ok {x : Except ε α} {f : α → β} {b : β} :
    x.map f = .ok b ↔ ∃ a, x = .ok a ∧ f a = b := by
  cases x <;> simp [Except.map]

/-- A computation in two steps fails in the first one or in the second. -/
theorem except_bind_eq_error {x : Except ε α} {f : α → Except ε β} {error : ε} :
    (x >>= f) = .error error ↔ x = .error error ∨ ∃ a, x = .ok a ∧ f a = .error error := by
  cases x <;> simp [bind, Except.bind]

/-- All elements of a list are computed exactly if each is. -/
theorem mapM_eq_ok_iff {f : α → Except ε β} {as : List α} {bs : List β} :
    as.mapM f = .ok bs ↔ List.Forall₂ (fun a b => f a = .ok b) as bs := by
  induction as generalizing bs with
  | nil =>
    rw [List.mapM_nil, List.forall₂_nil_left_iff]
    constructor
    · intro h
      cases h
      rfl
    · rintro rfl
      rfl
  | cons a as ih =>
    rw [List.mapM_cons, List.forall₂_cons_left_iff]
    constructor
    · intro h
      obtain ⟨b, hb, h⟩ := except_bind_eq_ok.1 h
      obtain ⟨rest, hrest, h⟩ := except_bind_eq_ok.1 h
      cases h
      exact ⟨b, rest, hb, ih.1 hrest, rfl⟩
    · rintro ⟨b, rest, hb, hrest, rfl⟩
      rw [hb, ih.2 hrest]
      rfl

/-- The elements that are computed from a list are values of one function. -/
theorem exists_map_of_mapM [Inhabited β] {f : α → Except ε β} {as : List α} {bs : List β}
    (h : as.mapM f = .ok bs) : ∃ g : α → β, bs = as.map g ∧ ∀ a ∈ as, f a = .ok (g a) := by
  refine ⟨fun a => (f a).toOption.getD default, ?_⟩
  rw [mapM_eq_ok_iff] at h
  induction h with
  | nil => exact ⟨rfl, fun a ha => absurd ha List.not_mem_nil⟩
  | @cons a b as bs hab _ ih =>
    have hvalue : (f a).toOption.getD default = b := by rw [hab]; rfl
    refine ⟨by rw [List.map_cons, hvalue, ← ih.1], List.forall_mem_cons.2 ⟨?_, ih.2⟩⟩
    show f a = .ok ((f a).toOption.getD default)
    rw [hvalue, hab]

/-- Where each value that is computed from an element is computed from the one that answers it as
well, so are all. -/
theorem mapM_simulates {f : α → Except ε σ} {g : β → Except ε σ} {as : List α} {bs : List β}
    (h : List.Forall₂ (fun a b => ∀ c, f a = .ok c → g b = .ok c) as bs) {cs : List σ}
    (hcs : as.mapM f = .ok cs) : bs.mapM g = .ok cs := by
  rw [mapM_eq_ok_iff] at hcs ⊢
  induction h generalizing cs with
  | nil =>
    cases hcs
    exact .nil
  | cons hab _ ih =>
    cases hcs with
    | cons ha hrest => exact .cons (hab _ ha) (ih hrest)

/-- A list whose elements are each related to something is related to a list. -/
theorem exists_forall₂ {R : α → β → Prop} {as : List α} (h : ∀ a ∈ as, ∃ b, R a b) :
    ∃ bs, List.Forall₂ R as bs := by
  induction as with
  | nil => exact ⟨[], .nil⟩
  | cons a as ih =>
    obtain ⟨b, hb⟩ := h a List.mem_cons_self
    obtain ⟨bs, hbs⟩ := ih fun a' ha => h a' (List.mem_cons_of_mem a ha)
    exact ⟨b :: bs, .cons hb hbs⟩

/-- An element of the first of two lists is related to one of the second. -/
theorem exists_of_forall₂ {R : α → β → Prop} {as : List α} {bs : List β} (h : List.Forall₂ R as bs)
    {a : α} (ha : a ∈ as) : ∃ b ∈ bs, R a b := by
  induction h with
  | nil => exact absurd ha List.not_mem_nil
  | @cons a' b' as bs hab _ ih =>
    rcases List.mem_cons.1 ha with rfl | ha
    · exact ⟨b', List.mem_cons_self, hab⟩
    · obtain ⟨b, hb, hab⟩ := ih ha
      exact ⟨b, List.mem_cons_of_mem b' hb, hab⟩

/-- What is put together from lists is not shorter than any of them. -/
theorem length_le_length_flatMap {as : List α} {a : α} (f : α → List β) (ha : a ∈ as) :
    (f a).length ≤ (as.flatMap f).length := by
  rw [List.flatMap_def]
  exact (List.sublist_flatten_of_mem (List.mem_map_of_mem ha)).length_le

/-- Where a function tells the elements of a list apart, searching for its value at one of them
leads to its place. -/
theorem findIdx?_of_nodup {κ : Type} [DecidableEq κ] {f : α → κ} {as : List α}
    (h : (as.map f).Nodup) {i : Nat} {a : α} (ha : as[i]? = some a) :
    (as.findIdx? fun b => f b == f a) = some i := by
  obtain ⟨hlt, rfl⟩ := List.getElem?_eq_some_iff.1 ha
  refine List.findIdx?_eq_some_iff_getElem.2 ⟨hlt, beq_self_eq_true _, fun j hj heq => ?_⟩
  have hne := List.pairwise_iff_getElem.1 h j i (by simp; omega) (by simpa using hlt) hj
  rw [List.getElem_map, List.getElem_map] at hne
  exact hne (beq_iff_eq.1 heq)

/-- What every step preserves, a run preserves. -/
theorem foldlM_preserves {step : σ → α → Except ε σ} {as : List α} (Inv : σ → Prop)
    (hstep : ∀ s a s', a ∈ as → Inv s → step s a = .ok s' → Inv s') {s s' : σ} (hs : Inv s)
    (h : as.foldlM step s = .ok s') : Inv s' := by
  induction as generalizing s with
  | nil =>
    cases h
    exact hs
  | cons a as ih =>
    rw [List.foldlM_cons] at h
    obtain ⟨next, hnext, h⟩ := except_bind_eq_ok.1 h
    refine ih (fun s b s' hb => hstep s b s' (List.mem_cons_of_mem a hb)) ?_ h
    exact hstep s a next List.mem_cons_self hs hnext

/-- A run stops with an error exactly if the steps before some element go through and the step at
this element stops with the error. -/
theorem foldlM_eq_error_iff {step : σ → α → Except ε σ} {as : List α} {s : σ} {error : ε} :
    as.foldlM step s = .error error ↔ ∃ before a after last, as = before ++ a :: after ∧
      before.foldlM step s = .ok last ∧ step last a = .error error := by
  constructor
  · intro h
    induction as generalizing s with
    | nil => cases h
    | cons a as ih =>
      rw [List.foldlM_cons] at h
      rcases ha : step s a with failure | next <;> rw [ha] at h
      · exact ⟨[], a, as, s, rfl, rfl, ha.trans h⟩
      · obtain ⟨before, b, after, last, rfl, hbefore, hb⟩ := ih h
        refine ⟨a :: before, b, after, last, rfl, ?_, hb⟩
        rw [List.foldlM_cons, ha]
        exact hbefore
  · rintro ⟨before, a, after, last, rfl, hbefore, ha⟩
    rw [List.foldlM_append, hbefore]
    show (a :: after).foldlM step last = .error error
    rw [List.foldlM_cons, ha]
    rfl

/-- Where each step of a run is answered by a step that keeps a relation of the states, the run is
answered by a run that does. -/
theorem foldlM_simulates {τ : Type} {step : σ → α → Except ε σ} {step' : τ → β → Except ε τ}
    {R : σ → τ → Prop} {S : α → β → Prop}
    (hstep : ∀ s t a b next, R s t → S a b → step s a = .ok next →
      ∃ next', step' t b = .ok next' ∧ R next next')
    {as : List α} {bs : List β} (hS : List.Forall₂ S as bs) {s last : σ} {t : τ} (hR : R s t)
    (h : as.foldlM step s = .ok last) : ∃ last', bs.foldlM step' t = .ok last' ∧ R last last' := by
  induction hS generalizing s t with
  | nil =>
    cases h
    exact ⟨t, rfl, hR⟩
  | @cons a b as bs hab _ ih =>
    rw [List.foldlM_cons] at h
    obtain ⟨next, hnext, h⟩ := except_bind_eq_ok.1 h
    obtain ⟨next', hnext', hR'⟩ := hstep s t a b next hR hab hnext
    rw [List.foldlM_cons, hnext']
    exact ih hR' h

/-- A run goes through its elements in any order, where any two of them do the same in either
order. -/
theorem foldlM_perm {step : σ → α → Except ε σ} {R : α → α → Prop}
    (hsymm : ∀ {a b}, R a b → R b a)
    (hswap : ∀ a b s last, R a b → (step s a >>= fun next => step next b) = .ok last →
      (step s b >>= fun next => step next a) = .ok last)
    {as bs : List α} (hperm : as.Perm bs) (hpairwise : as.Pairwise R) {s last : σ}
    (h : as.foldlM step s = .ok last) : bs.foldlM step s = .ok last := by
  induction hperm generalizing s with
  | nil => exact h
  | cons a _ ih =>
    rw [List.foldlM_cons] at h ⊢
    obtain ⟨next, hnext, h⟩ := except_bind_eq_ok.1 h
    exact except_bind_eq_ok.2 ⟨next, hnext, ih (List.pairwise_cons.1 hpairwise).2 h⟩
  | swap a b as =>
    simp only [List.foldlM_cons, ← bind_assoc] at h ⊢
    obtain ⟨next, hnext, h⟩ := except_bind_eq_ok.1 h
    have hR : R b a := (List.pairwise_cons.1 hpairwise).1 a List.mem_cons_self
    exact except_bind_eq_ok.2 ⟨next, hswap b a s next hR hnext, h⟩
  | trans hperm _ ih ih' =>
    exact ih' ((hperm.pairwise_iff hsymm).1 hpairwise) (ih hpairwise h)

/-- A run goes through an element last that does the same before or after each of the elements
behind it. -/
theorem foldlM_middle {step : σ → α → Except ε σ} {a : α} {front back : List α}
    (hswap : ∀ b ∈ back, ∀ s last, (step s a >>= fun next => step next b) = .ok last ↔
      (step s b >>= fun next => step next a) = .ok last) {s last : σ} :
    (front ++ a :: back).foldlM step s = .ok last ↔
      ((front ++ back).foldlM step s >>= fun base => step base a) = .ok last := by
  have hlast : ∀ s, (a :: back).foldlM step s = .ok last ↔
      (back.foldlM step s >>= fun base => step base a) = .ok last := by
    induction back with
    | nil =>
      intro s
      rw [List.foldlM_cons, List.foldlM_nil, pure_bind]
      simp only [List.foldlM_nil, bind_pure]
    | cons b back ih =>
      intro s
      have ih := ih fun c hc => hswap c (List.mem_cons_of_mem b hc)
      calc (a :: b :: back).foldlM step s = .ok last
        _ ↔ ∃ next, (step s a >>= fun next => step next b) = .ok next ∧
              back.foldlM step next = .ok last := by
            rw [← except_bind_eq_ok, bind_assoc]
            simp only [List.foldlM_cons]
        _ ↔ ∃ next, (step s b >>= fun next => step next a) = .ok next ∧
              back.foldlM step next = .ok last := by
            simp only [hswap b List.mem_cons_self]
        _ ↔ ∃ next, step s b = .ok next ∧ (a :: back).foldlM step next = .ok last := by
            rw [← except_bind_eq_ok, ← except_bind_eq_ok, bind_assoc]
            simp only [List.foldlM_cons]
        _ ↔ ((b :: back).foldlM step s >>= fun base => step base a) = .ok last := by
            simp only [ih]
            rw [← except_bind_eq_ok, List.foldlM_cons, bind_assoc]
  rw [List.foldlM_append, List.foldlM_append, bind_assoc, except_bind_eq_ok, except_bind_eq_ok]
  simp only [hlast]

/-- Steps that do to the image of a state what other steps do to the state, errors included, do so
in a run, where the steps keep what is asked of the states. -/
theorem foldlM_image {τ : Type} {step : σ → α → Except ε σ} {step' : τ → β → Except ε τ}
    {image : σ → τ} {Inv : σ → Prop} {S : α → β → Prop}
    (hinv : ∀ s a next, Inv s → step s a = .ok next → Inv next)
    (hstep : ∀ s a b, Inv s → S a b → step' (image s) b = (step s a).map image)
    {as : List α} {bs : List β} (hS : List.Forall₂ S as bs) {s : σ} (hs : Inv s) :
    bs.foldlM step' (image s) = (as.foldlM step s).map image := by
  induction hS generalizing s with
  | nil => rfl
  | @cons a b as bs hab _ ih =>
    rw [List.foldlM_cons, List.foldlM_cons, hstep s a b hs hab]
    rcases hnext : step s a with error | next
    · rfl
    · exact ih (hinv s a next hs hnext)

/-- Computations that either give values of a function or stop with one error: all of them give
values, or the whole stops with this error. -/
theorem mapM_guarded {f : β → Except ε σ} {as : List α} {bs : List β} {ok : α → Prop}
    [DecidablePred ok] {g : α → σ} {error : ε}
    (h : List.Forall₂ (fun a b => f b = if ok a then .ok (g a) else .error error) as bs) :
    bs.mapM f = if ∀ a ∈ as, ok a then .ok (as.map g) else .error error := by
  induction h with
  | nil => simp [pure, Except.pure]
  | @cons a b as bs hab _ ih =>
    rw [List.mapM_cons, hab, ih]
    simp only [List.forall_mem_cons]
    by_cases ha : ok a
    · rw [if_pos ha]
      by_cases hall : ∀ a ∈ as, ok a
      · rw [if_pos hall, if_pos ⟨ha, hall⟩]
        rfl
      · rw [if_neg hall, if_neg fun h => hall h.2]
        rfl
    · rw [if_neg ha]
      exact (if_neg fun h => ha h.1).symm

/-- Steps that either change the state by a function or stop with one error: all of them change it,
or the run stops with this error. -/
theorem foldlM_guarded {step : σ → β → Except ε σ} {as : List α} {bs : List β} {ok : α → Prop}
    [DecidablePred ok] {change : σ → α → σ} {error : ε}
    (h : List.Forall₂ (fun a b => ∀ s, step s b = if ok a then .ok (change s a) else .error error)
      as bs) (s : σ) :
    bs.foldlM step s = if ∀ a ∈ as, ok a then .ok (as.foldl change s) else .error error := by
  induction h generalizing s with
  | nil => simp [pure, Except.pure]
  | @cons a b as bs hab _ ih =>
    rw [List.foldlM_cons, hab]
    simp only [List.forall_mem_cons]
    by_cases ha : ok a
    · rw [if_pos ha]
      show bs.foldlM step (change s a) = _
      rw [ih]
      simp only [ha, true_and, List.foldl_cons]
    · rw [if_neg ha, if_neg fun h => ha h.1]
      rfl

/-- Elements that are related to different ones and thereby tell them apart are different. -/
theorem nodup_of_forall₂ {κ ι : Type} {R : α → β → Prop} {as : List α} {bs : List β} {f : α → κ}
    {g : β → ι} (h : List.Forall₂ R as bs) (hnodup : (as.map f).Nodup)
    (hR : ∀ a a' b b', R a b → R a' b' → g b = g b' → f a = f a') : (bs.map g).Nodup := by
  induction h with
  | nil => exact List.nodup_nil
  | @cons a b as bs hab hrest ih =>
    rw [List.map_cons, List.nodup_cons] at hnodup ⊢
    refine ⟨fun hmem => hnodup.1 ?_, ih hnodup.2⟩
    obtain ⟨b', hb', heq⟩ := List.mem_map.1 hmem
    obtain ⟨a', ha', hab'⟩ := exists_of_forall₂ hrest.flip hb'
    rw [hR a a' b b' hab hab' heq.symm]
    exact List.mem_map_of_mem ha'

end DynProto
