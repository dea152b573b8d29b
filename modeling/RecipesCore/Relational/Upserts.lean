import RecipesCore.Relational.Table

/-!
# A list of upserts

A list of inputs is upserted one after the other into a table without repeated keys. Rows that were
there stay where they are and take over the last input listed for their key (`refreshed`); a key that
was not there gets one new row. `Upserted` says this of the table after some of the inputs, and each
further upsert keeps it.
-/

namespace RecipesCore.Relational

variable {α β κ : Type*} [DecidableEq κ]

/-- The last input listed for a key. -/
def lastListed (given : β → κ) : List β → κ → Option β
  | [], _ => none
  | input :: rest, k =>
      (lastListed given rest k).or (if given input = k then some input else none)

section

variable {given : β → κ} {listed : List β} {input : β} {k : κ}

theorem lastListed_append : ∀ listed : List β, lastListed given (listed ++ [input]) k =
    if given input = k then some input else lastListed given listed k
  | [] => by
      simp only [List.nil_append, lastListed, Option.none_or]
  | first :: listed => by
      rw [List.cons_append, lastListed, lastListed_append listed, lastListed]
      split
      · simp
      · simp

theorem lastListed_eq_none :
    lastListed given listed k = none ↔ ∀ input ∈ listed, given input ≠ k := by
  induction listed with
  | nil => simp [lastListed]
  | cons input rest ih =>
      rw [lastListed, Option.or_eq_none_iff, ih, List.forall_mem_cons, and_comm]
      simp

theorem lastListed_mem (h : lastListed given listed k = some input) :
    input ∈ listed ∧ given input = k := by
  induction listed with
  | nil => cases h
  | cons first rest ih =>
      rw [lastListed, Option.or_eq_some_iff] at h
      rcases h with hlater | ⟨-, hfirst⟩
      · obtain ⟨hmem, hkey⟩ := ih hlater
        exact ⟨List.mem_cons_of_mem first hmem, hkey⟩
      · split at hfirst
        · next hkey =>
            obtain rfl := Option.some_inj.mp hfirst
            exact ⟨List.mem_cons_self, hkey⟩
        · cases hfirst

/-- What nothing later overrides is the last. -/
theorem lastListed_of_last {earlier later : List β}
    (h : ∀ other ∈ later, given other ≠ given input) :
    lastListed given (earlier ++ input :: later) (given input) = some input := by
  induction earlier with
  | nil =>
      have hnone := lastListed_eq_none.mpr h
      simp [lastListed, hnone]
  | cons first earlier ih =>
      rw [List.cons_append, lastListed, ih, Option.some_or]

/-- Behind the last input listed for a key there is none with that key. -/
theorem lastListed_split (h : lastListed given listed k = some input) :
    ∃ earlier later, listed = earlier ++ input :: later ∧ ∀ other ∈ later, given other ≠ k := by
  induction listed with
  | nil => cases h
  | cons first rest ih =>
      rw [lastListed, Option.or_eq_some_iff] at h
      rcases h with hlater | ⟨hnone, hfirst⟩
      · obtain ⟨earlier, later, rfl, hrest⟩ := ih hlater
        exact ⟨first :: earlier, later, rfl, hrest⟩
      · split at hfirst
        · obtain rfl := Option.some_inj.mp hfirst
          exact ⟨[], rest, rfl, lastListed_eq_none.mp hnone⟩
        · cases hfirst

end

/-- A row takes over the last input listed for its key. -/
def refreshed (key : α → κ) (given : β → κ) (set : β → α → α) (listed : List β) (row : α) : α :=
  match lastListed given listed (key row) with
  | some input => set input row
  | none => row

/-- The rows after `listed` was upserted into `start`. -/
structure Upserted (key : α → κ) (given : β → κ) (set : β → α → α) (start : List α)
    (listed : List β) (rows : List α) : Prop where
  split : ∃ added, rows = start.map (refreshed key given set listed) ++ added ∧
    ∀ row ∈ added, (∀ old ∈ start, key old ≠ key row) ∧
      ∃ input, lastListed given listed (key row) = some input ∧ set input row = row
  present : ∀ input ∈ listed, ∃ row ∈ rows, key row = given input

section

variable {key : α → κ} {given : β → κ} {set : β → α → α} {start rows : List α} {listed : List β}
  {row : α} {k : κ}

theorem refreshed_of_none (h : lastListed given listed (key row) = none) :
    refreshed key given set listed row = row := by
  simp only [refreshed, h]

theorem refreshed_of_some {input : β} (h : lastListed given listed (key row) = some input) :
    refreshed key given set listed row = set input row := by
  simp only [refreshed, h]

/-- The rows of its key take one more input over. -/
theorem refreshed_append_of_eq (hset : ∀ input input' row, set input (set input' row) = set input row)
    {input : β} (h : key row = given input) :
    refreshed key given set (listed ++ [input]) row =
      set input (refreshed key given set listed row) := by
  have hlast : lastListed given (listed ++ [input]) (key row) = some input := by
    rw [lastListed_append, if_pos h.symm]
  rw [refreshed_of_some hlast, refreshed]
  split
  · exact (hset _ _ row).symm
  · rfl

/-- The rows of all other keys do not. -/
theorem refreshed_append_of_ne {input : β} (h : key row ≠ given input) :
    refreshed key given set (listed ++ [input]) row = refreshed key given set listed row := by
  simp only [refreshed, lastListed_append, if_neg h.symm]

theorem Upserted.nil : Upserted key given set start [] start where
  split := ⟨[], by
    rw [List.append_nil]
    exact ((List.map_congr_left fun _ _ => refreshed_of_none rfl).trans (List.map_id start)).symm,
    by simp⟩
  present := by simp

variable (hkey : ∀ input row, key (set input row) = key row)

include hkey

theorem refreshed_key : key (refreshed key given set listed row) = key row := by
  unfold refreshed
  split
  · exact hkey _ row
  · rfl

/-- What the list does not name keeps its rows. -/
theorem Upserted.filter_unlisted (h : Upserted key given set start listed rows)
    (hk : ∀ input ∈ listed, given input ≠ k) :
    (rows.filter fun row => decide (key row = k)) = start.filter fun row => decide (key row = k) := by
  obtain ⟨added, rfl, hadded⟩ := h.split
  have hnone := lastListed_eq_none.mpr hk
  have hnew : (added.filter fun row => decide (key row = k)) = [] := by
    refine List.filter_eq_nil_iff.mpr fun row hrow hrowKey => ?_
    obtain ⟨-, input, hlast, -⟩ := hadded row hrow
    rw [of_decide_eq_true hrowKey, hnone] at hlast
    cases hlast
  rw [List.filter_append, hnew, List.append_nil, List.filter_map]
  have hsame : (start.filter ((fun row => decide (key row = k)) ∘ refreshed key given set listed)) =
      start.filter fun row => decide (key row = k) :=
    List.filter_congr fun row _ => by rw [Function.comp, refreshed_key hkey]
  rw [hsame]
  refine (List.map_congr_left fun row hrow => ?_).trans (List.map_id _)
  have hrowKey := of_decide_eq_true (List.mem_filter.mp hrow).2
  exact refreshed_of_none (by rw [hrowKey, hnone])

theorem Upserted.mem_unlisted (h : Upserted key given set start listed rows)
    (hk : ∀ input ∈ listed, given input ≠ key row) : row ∈ rows ↔ row ∈ start := by
  have hmem : ∀ rows : List α, row ∈ rows ↔ row ∈ rows.filter fun r => decide (key r = key row) := by
    intro rows
    rw [List.mem_filter]
    exact (and_iff_left (decide_eq_true rfl)).symm
  rw [hmem, hmem start, h.filter_unlisted hkey hk]

/-- One more upsert, of a key that has no rows. -/
theorem Upserted.insert (h : Upserted key given set start listed rows) {input : β} {new : α}
    (hnew : key new = given input) (hcarries : set input new = new)
    (habsent : ∀ row ∈ rows, key row ≠ given input) :
    Upserted key given set start (listed ++ [input]) (rows ++ [new]) := by
  obtain ⟨added, hrows, hadded⟩ := h.split
  have hstart : ∀ old ∈ start, key old ≠ given input := by
    intro old hold
    have hmem : refreshed key given set listed old ∈ rows := by
      rw [hrows]
      exact List.mem_append_left _ (List.mem_map.mpr ⟨old, hold, rfl⟩)
    have hsame : key (refreshed key given set listed old) = key old := refreshed_key hkey
    exact hsame ▸ habsent _ hmem
  refine ⟨⟨added ++ [new], ?_, ?_⟩, ?_⟩
  · rw [← List.append_assoc, hrows]
    congr 2
    exact List.map_congr_left fun row hrow => (refreshed_append_of_ne (hstart row hrow)).symm
  · intro row hrow
    rcases List.mem_append.mp hrow with hrow | hrow
    · obtain ⟨hfree, last, hlast, hlastCarries⟩ := hadded row hrow
      have hne : given input ≠ key row := by
        refine (habsent row ?_).symm
        rw [hrows]
        exact List.mem_append_right _ hrow
      exact ⟨hfree, last, by rw [lastListed_append, if_neg hne]; exact hlast, hlastCarries⟩
    · obtain rfl := List.mem_singleton.mp hrow
      refine ⟨fun old hold hsame => hstart old hold (hsame.trans hnew), input, ?_, hcarries⟩
      rw [lastListed_append, if_pos hnew.symm]
  · intro other hother
    rcases List.mem_append.mp hother with hother | hother
    · obtain ⟨row, hrow, hrowKey⟩ := h.present other hother
      exact ⟨row, List.mem_append_left _ hrow, hrowKey⟩
    · obtain rfl := List.mem_singleton.mp hother
      exact ⟨new, List.mem_append_right _ (List.mem_singleton_self new), hnew⟩

variable (hset : ∀ input input' row, set input (set input' row) = set input row)

include hset

/-- A row whose key is listed carries the last input listed for it. -/
theorem Upserted.carries (h : Upserted key given set start listed rows) (hrow : row ∈ rows)
    {input : β} (hlast : lastListed given listed (key row) = some input) : set input row = row := by
  obtain ⟨added, rfl, hadded⟩ := h.split
  rcases List.mem_append.mp hrow with hrow | hrow
  · obtain ⟨old, -, rfl⟩ := List.mem_map.mp hrow
    rw [refreshed_key hkey] at hlast
    rw [refreshed_of_some hlast, hset]
  · obtain ⟨-, input', hlast', hcarries⟩ := hadded row hrow
    rw [hlast] at hlast'
    exact Option.some_inj.mp hlast' ▸ hcarries

/-- One more upsert, of a key that has rows. -/
theorem Upserted.update (h : Upserted key given set start listed rows) {input : β}
    (hany : ∃ row ∈ rows, key row = given input) :
    Upserted key given set start (listed ++ [input])
      (updateWhere (fun row => decide (key row = given input)) (set input) rows) := by
  obtain ⟨added, hrows, hadded⟩ := h.split
  -- the rows that were added before take the input over as well
  refine ⟨⟨added.map fun row => if key row = given input then set input row else row, ?_, ?_⟩, ?_⟩
  · rw [hrows, updateWhere, List.map_append, List.map_map]
    congr 1
    · refine List.map_congr_left fun row _ => ?_
      simp only [Function.comp, refreshed_key hkey, decide_eq_true_eq]
      split
      · next hrow => exact (refreshed_append_of_eq hset hrow).symm
      · next hrow => exact (refreshed_append_of_ne hrow).symm
    · exact List.map_congr_left fun row _ => by simp only [decide_eq_true_eq]
  · intro row hrow
    obtain ⟨before, hbefore, rfl⟩ := List.mem_map.mp hrow
    obtain ⟨hfree, last, hlast, hlastCarries⟩ := hadded before hbefore
    split
    · next hrow =>
        rw [hkey]
        exact ⟨hfree, input, by rw [lastListed_append, if_pos hrow.symm], hset _ _ _⟩
    · next hrow =>
        exact ⟨hfree, last, by rw [lastListed_append, if_neg (Ne.symm hrow)]; exact hlast,
          hlastCarries⟩
  · intro other hother
    obtain ⟨row, hrow, hrowKey⟩ : ∃ row ∈ rows, key row = given other := by
      rcases List.mem_append.mp hother with hother | hother
      · exact h.present other hother
      · exact List.mem_singleton.mp hother ▸ hany
    obtain ⟨row', hrow', hrowKey'⟩ := exists_mem_updateWhere
      (p := fun row => decide (key row = given input)) (hkey input) hrow
    exact ⟨row', hrow', hrowKey'.trans hrowKey⟩

/-- **One more upsert.** -/
theorem Upserted.upsert (h : Upserted key given set start listed rows) {input : β} {new : α}
    (hnew : key new = given input) (hcarries : set input new = new) :
    Upserted key given set start (listed ++ [input])
      (upsert (fun row => decide (key row = given input)) (set input) new rows) := by
  unfold Relational.upsert
  split
  · next hany =>
      obtain ⟨row, hrow, hrowKey⟩ := List.any_eq_true.mp hany
      exact h.update hkey hset ⟨row, hrow, of_decide_eq_true hrowKey⟩
  · next hany =>
      have habsent : ∀ row ∈ rows, key row ≠ given input := by
        simpa using hany
      exact h.insert hkey hnew hcarries habsent

/-- **Upserting the same list again changes nothing.** -/
theorem Upserted.again (h : Upserted key given set start listed rows) {rows' : List α}
    (h' : Upserted key given set rows listed rows') : rows' = rows := by
  obtain ⟨added, rfl, hadded⟩ := h'.split
  have hnone : added = [] := by
    refine List.eq_nil_iff_forall_not_mem.mpr fun row hrow => ?_
    obtain ⟨hfree, input, hlast, -⟩ := hadded row hrow
    obtain ⟨hmem, hinput⟩ := lastListed_mem hlast
    obtain ⟨old, hold, holdKey⟩ := h.present input hmem
    exact hfree old hold (holdKey.trans hinput)
  rw [hnone, List.append_nil]
  refine (List.map_congr_left fun row hrow => ?_).trans (List.map_id rows)
  cases hlast : lastListed given listed (key row) with
  | none => exact refreshed_of_none hlast
  | some input => exact (refreshed_of_some hlast).trans (h.carries hkey hset hrow hlast)

end

end RecipesCore.Relational
