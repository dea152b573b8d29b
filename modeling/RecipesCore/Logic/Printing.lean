import Mathlib.Data.List.TakeWhile

/-!
# Printing that can be read back

A printer tells a view of what it prints when the view can be read off the text, and with it where
the text ends, before whatever may follow. Printers that tell compose: one after the other, where
the second may depend on what the first has told, and over lists, as long as what follows the list
does not look like one more element of it.
-/

namespace RecipesCore.Logic

variable {α β γ δ : Type*}

/-- Before a rest in `R`, what `print` writes for an `a` with `P a` tells `view a` and where it
ends. -/
def Tells (R : List γ → Prop) (P : α → Prop) (print : α → List γ) (view : α → β) : Prop :=
  ∀ ⦃a b : α⦄ ⦃rest rest' : List γ⦄, R rest → R rest' → P a → P b →
    print a ++ rest = print b ++ rest' → view a = view b ∧ rest = rest'

/-- `rest` does not go on with something that is printed. -/
def Stops (P : α → Prop) (print : α → List γ) (rest : List γ) : Prop :=
  ∀ a, P a → ∀ more, rest ≠ print a ++ more

section

variable {R S : List γ → Prop} {P : α → Prop} {print first second : α → List γ} {view : α → β}
  {told : α → δ}

/-- What comes back when it is read is told, however much the reader has to read for it. -/
theorem tells_of_read {read : Nat → List γ → Option (β × List γ)}
    (h : ∀ a rest, P a → R rest → ∃ least, ∀ width ≥ least,
      read width (print a ++ rest) = some (view a, rest)) : Tells R P print view := by
  intro a b rest rest' hrest hrest' ha hb heq
  obtain ⟨least, hread⟩ := h a rest ha hrest
  obtain ⟨least', hread'⟩ := h b rest' hb hrest'
  have hsame : some (view a, rest) = some (view b, rest') := by
    rw [← hread (least + least') (Nat.le_add_right _ _), heq,
      hread' (least + least') (Nat.le_add_left _ _)]
  exact Prod.mk.inj (Option.some.inj hsame)

/-- A text that does not depend on anything else. -/
theorem tells_fixed (h : ∀ a b, P a → P b → print a = print b) : Tells R P print fun _ => () := by
  intro a b rest rest' _ _ ha hb heq
  rw [h a b ha hb] at heq
  exact ⟨rfl, List.append_cancel_left heq⟩

/-- A part of what is printed. -/
theorem Tells.comp {part : δ → α} {Q : δ → Prop} (h : Tells R P print view)
    (hpart : ∀ d, Q d → P (part d)) :
    Tells R Q (fun d => print (part d)) fun d => view (part d) :=
  fun _ _ _ _ hrest hrest' ha hb heq => h hrest hrest' (hpart _ ha) (hpart _ hb) heq

/-- What a view has told, another one may be read off. -/
theorem Tells.read (h : Tells R P print told)
    (hview : ∀ a b, P a → P b → told a = told b → view a = view b) : Tells R P print view := by
  intro a b rest rest' hrest hrest' ha hb heq
  obtain ⟨htold, hends⟩ := h hrest hrest' ha hb heq
  exact ⟨hview a b ha hb htold, hends⟩

/-- A text ends at its first `stop`. -/
theorem tells_until [DecidableEq γ] {stop : γ} (hstop : ∀ a, P a → stop ∉ print a)
    (hview : ∀ a b, P a → P b → print a = print b → view a = view b) :
    Tells R P (fun a => print a ++ [stop]) view := by
  intro a b rest rest' _ _ ha hb heq
  rw [List.append_assoc, List.append_assoc] at heq
  have hread : ∀ text rest : List γ, stop ∉ text →
      (text ++ ([stop] ++ rest)).takeWhile (fun c => decide (c ≠ stop)) = text := by
    intro text rest htext
    rw [List.takeWhile_append_of_pos fun c hc => by
      simpa using fun hcs : c = stop => htext (hcs ▸ hc)]
    simp
  have hsame : print a = print b := by
    rw [← hread (print a) rest (hstop a ha), heq, hread (print b) rest' (hstop b hb)]
  rw [hsame, ← List.append_assoc, ← List.append_assoc] at heq
  exact ⟨hview a b ha hb hsame, List.append_cancel_left heq⟩

/-- A fixed text first. -/
theorem Tells.after (text : List γ) (h : Tells R P print view) :
    Tells R P (fun a => text ++ print a) view := by
  intro a b rest rest' hrest hrest' ha hb heq
  rw [List.append_assoc, List.append_assoc] at heq
  exact h hrest hrest' ha hb (List.append_cancel_left heq)

/-- One printer after the other, which depends on what the first has told. -/
theorem Tells.bind (h : Tells S P first told)
    (h' : ∀ d, Tells R (fun a => P a ∧ told a = d) second view)
    (hRS : ∀ a rest, P a → R rest → S (second a ++ rest)) :
    Tells R P (fun a => first a ++ second a) fun a => (told a, view a) := by
  intro a b rest rest' hrest hrest' ha hb heq
  rw [List.append_assoc, List.append_assoc] at heq
  obtain ⟨htold, hmore⟩ := h (hRS a rest ha hrest) (hRS b rest' hb hrest') ha hb heq
  obtain ⟨hview, hends⟩ := h' (told b) hrest hrest' ⟨ha, htold⟩ ⟨hb, rfl⟩ hmore
  exact ⟨Prod.ext htold hview, hends⟩

/-- One printer after the other. -/
theorem Tells.append (h : Tells S P first told) (h' : Tells R P second view)
    (hRS : ∀ a rest, P a → R rest → S (second a ++ rest)) :
    Tells R P (fun a => first a ++ second a) fun a => (told a, view a) :=
  h.bind (fun _ => h'.comp fun _ ha => ha.1) hRS

/-- The first ends by itself, whatever follows. -/
theorem Tells.next (h : Tells (fun _ => True) P first told) (h' : Tells R P second view) :
    Tells R P (fun a => first a ++ second a) fun a => (told a, view a) :=
  h.append h' fun _ _ _ _ => trivial

theorem Stops.nil (h : ∀ a, P a → print a ≠ []) : Stops P print [] := by
  intro a ha more heq
  exact h a ha (List.append_eq_nil_iff.mp heq.symm).1

/-- Elements one after the other, up to where they stop. -/
theorem Tells.flatMap (h : Tells R P print view) (hR : ∀ a more, P a → R (print a ++ more)) :
    Tells (fun rest => R rest ∧ Stops P print rest) (fun as => ∀ a ∈ as, P a)
      (fun as => as.flatMap print) (List.map view) := by
  intro as bs rest rest' hrest hrest' has hbs heq
  change as.flatMap print ++ rest = bs.flatMap print ++ rest' at heq
  -- what is left after an element is one more element or the end
  have hleft : ∀ {as : List α} {rest}, (∀ a ∈ as, P a) → R rest → R (as.flatMap print ++ rest) := by
    intro as rest has hrest
    cases as with
    | nil => exact hrest
    | cons a as =>
        rw [List.flatMap_cons, List.append_assoc]
        exact hR a _ (has a List.mem_cons_self)
  induction as generalizing bs with
  | nil =>
      cases bs with
      | nil => exact ⟨rfl, heq⟩
      | cons b bs =>
          rw [List.flatMap_cons, List.append_assoc] at heq
          exact absurd heq (hrest.2 b (hbs b List.mem_cons_self) _)
  | cons a as ih =>
      cases bs with
      | nil =>
          rw [List.flatMap_cons, List.append_assoc] at heq
          exact absurd heq.symm (hrest'.2 a (has a List.mem_cons_self) _)
      | cons b bs =>
          rw [List.flatMap_cons, List.flatMap_cons, List.append_assoc, List.append_assoc] at heq
          obtain ⟨ha, has⟩ := List.forall_mem_cons.mp has
          obtain ⟨hb, hbs⟩ := List.forall_mem_cons.mp hbs
          obtain ⟨hab, hmore⟩ := h (hleft has hrest.1) (hleft hbs hrest'.1) ha hb heq
          obtain ⟨hviews, hends⟩ := ih has hbs hmore
          exact ⟨by rw [List.map_cons, List.map_cons, hab, hviews], hends⟩

/-- The elements, or a text that says that there are none. -/
theorem Tells.listing {none : List γ} (h : Tells R P print view)
    (hR : ∀ a more, P a → R (print a ++ more)) (hnone : ∀ rest, Stops P print (none ++ rest)) :
    Tells (fun rest => R rest ∧ Stops P print rest) (fun as => ∀ a ∈ as, P a)
      (fun as => if as.isEmpty then none else as.flatMap print) (List.map view) := by
  intro as bs rest rest' hrest hrest' has hbs heq
  cases as with
  | nil =>
      cases bs with
      | nil => exact ⟨rfl, List.append_cancel_left heq⟩
      | cons b bs =>
          change none ++ rest = (b :: bs).flatMap print ++ rest' at heq
          rw [List.flatMap_cons, List.append_assoc] at heq
          exact absurd heq (hnone rest b (hbs b List.mem_cons_self) _)
  | cons a as =>
      cases bs with
      | nil =>
          change (a :: as).flatMap print ++ rest = none ++ rest' at heq
          rw [List.flatMap_cons, List.append_assoc] at heq
          exact absurd heq.symm (hnone rest' a (has a List.mem_cons_self) _)
      | cons b bs => exact h.flatMap hR hrest hrest' has hbs heq

/-- What is printed for a list depends on the views alone when this holds of each element. -/
theorem flatMap_eq_of_map_eq (h : ∀ a b, view a = view b → print a = print b) {as bs : List α}
    (heq : as.map view = bs.map view) : as.flatMap print = bs.flatMap print := by
  induction as generalizing bs with
  | nil => rw [List.map_eq_nil_iff.mp heq.symm]
  | cons a as ih =>
      cases bs with
      | nil => cases heq
      | cons b bs =>
          obtain ⟨hab, hviews⟩ := List.cons.inj heq
          rw [List.flatMap_cons, List.flatMap_cons, h a b hab, ih hviews]

theorem listing_eq_of_map_eq {none : List γ} (h : ∀ a b, view a = view b → print a = print b)
    {as bs : List α} (heq : as.map view = bs.map view) :
    (if as.isEmpty then none else as.flatMap print) =
      if bs.isEmpty then none else bs.flatMap print := by
  have hempty : as.isEmpty = bs.isEmpty := by
    rw [← List.isEmpty_map, heq, List.isEmpty_map]
  rw [hempty, flatMap_eq_of_map_eq h heq]

end

end RecipesCore.Logic
