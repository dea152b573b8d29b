import RecipesCore.Server.Histories

/-!
# Over restarts

The process may end at any moment, orderly or not, and another one opens the database that it left.
The queue, the posted completions and the coroutines are gone then, and whoever has not been
answered never will be. An operation that was cut off left the tables as they were: what SQLite has
not committed it takes back. So a process ends between two steps.

The histories of the processes, one after the other, are still one history of one kitchen.
-/

namespace RecipesCore.Net

open RecipesCore.App RecipesCore.App.DatabaseExecutor
open RecipesCore.Db
open RecipesCore.Logic

/-! ## State -/

/-- The process that runs, and the requests to those before it. -/
structure Lives where
  past : List Exchange := []
  serving : Serving

inductive LivesEvent where
  | serve (event : ServingEvent)
  | restart (queueCapacity : Nat)

def answeredIn (exchanges : List Exchange) : List Nat :=
  (List.range exchanges.length).filter fun i =>
    ((exchanges[i]?).bind fun x => x.progress.response).isSome

/-- The exchange in the numbering of all processes. -/
def Exchange.after (past : List Exchange) (x : Exchange) : Exchange :=
  { x with earlier := answeredIn past ++ x.earlier.map (past.length + ·) }

namespace Lives

/-- The requests to all processes, in the order in which they came. -/
def requests (s : Lives) : List Exchange :=
  s.past ++ s.serving.exchanges.map (Exchange.after s.past)

variable (router : Router)

def next (s : Lives) : LivesEvent → Option Lives
  | .serve event => (s.serving.next router event).map fun serving => { s with serving }
  | .restart queueCapacity =>
      let db := s.serving.executor.service.db
      if 0 < queueCapacity then
        some { past := s.requests
               serving := { executor := {
                 service := DBManager.onTables db.tables db.sequences, queueCapacity } } }
      else none

def runs : System Lives LivesEvent where
  init s := (Serving.runs router).init s.serving ∧ s.past = []
  step s event s' := s.next router event = some s'

end Lives

/-! ## Numberings -/

def Telling.renumber (n : Nat) (telling : Telling) : Telling := (n + telling.1, telling.2)

section

variable {n i : Nat} {history : List Telling}

/-- The kitchen does not look at who is told. -/
theorem run_renumber {k k' : Kitchen} (h : servedRuns.Run k history k') :
    servedRuns.Run k (history.map (Telling.renumber n)) k' := by
  induction h with
  | here => exact .here
  | step _ hlast ih =>
      rw [List.map_append]
      exact .step ih hlast

theorem answersTo_renumber :
    answersTo (n + i) (history.map (Telling.renumber n)) = answersTo i history := by
  induction history with
  | nil => rfl
  | cons telling rest ih =>
      simp only [answersTo, List.map_cons, List.filter_cons, Telling.renumber,
        Nat.add_left_cancel_iff] at ih ⊢
      split <;> simp [ih]

theorem renumber_ne (h : i < n) : ∀ telling ∈ history.map (Telling.renumber n), telling.1 ≠ i := by
  intro telling htelling
  obtain ⟨original, -, rfl⟩ := List.mem_map.mp htelling
  exact (h.trans_le (Nat.le_add_right n _)).ne'

end

/-! ## Histories one after the other -/

section

variable {router : Router} {past exchanges : List Exchange} {before after : List Telling}
  {i j : Nat}

theorem mem_answeredIn (h : i ∈ answeredIn past) : i < past.length :=
  List.mem_range.mp (List.mem_filter.mp h).1

/-- The history of the later process is told behind that of the earlier ones. -/
theorem Serving.Explains.join (hpast : Explains router before past)
    (hnow : Explains router after exchanges) :
    Explains router (before ++ after.map (Telling.renumber past.length))
      (past ++ exchanges.map (Exchange.after past)) := by
  have hold : ∀ telling ∈ before, telling.1 < past.length := by
    intro telling htelling
    obtain ⟨x, hx, -⟩ := hpast.asked telling htelling
    exact (List.getElem?_eq_some_iff.mp hx).1
  -- an exchange is one of the past, or one of the present under its new number
  have hcases : ∀ {i x}, (past ++ exchanges.map (Exchange.after past))[i]? = some x →
      i < past.length ∧ past[i]? = some x ∨
        ∃ j y, i = past.length + j ∧ exchanges[j]? = some y ∧ x = y.after past := by
    intro i x hx
    rw [List.getElem?_append] at hx
    split at hx
    · next hi => exact Or.inl ⟨hi, hx⟩
    · next hi =>
        rw [List.getElem?_map] at hx
        obtain ⟨y, hy, rfl⟩ := Option.map_eq_some_iff.mp hx
        exact Or.inr ⟨_, y, by omega, hy, rfl⟩
  refine ⟨fun i x response hx hp => ?_, fun telling htelling => ?_, fun i x j hx hj => ?_⟩
  · rcases hcases hx with ⟨hi, hx⟩ | ⟨j, y, rfl, hy, rfl⟩
    · rw [answersTo_append, answersTo_eq_nil (renumber_ne hi), List.append_nil]
      exact hpast.responses i x response hx hp
    · rw [answersTo_append, answersTo_renumber, answersTo_eq_nil, List.nil_append]
      · exact hnow.responses j y response hy hp
      · intro telling htelling
        have := hold telling htelling
        omega
  · rcases List.mem_append.mp htelling with hbefore | hafter
    · obtain ⟨x, hx, hasks⟩ := hpast.asked telling hbefore
      exact ⟨x, (List.getElem?_append_left (hold telling hbefore)).trans hx, hasks⟩
    · obtain ⟨original, horiginal, rfl⟩ := List.mem_map.mp hafter
      obtain ⟨x, hx, hasks⟩ := hnow.asked original horiginal
      refine ⟨x.after past, ?_, hasks⟩
      rw [Telling.renumber, List.getElem?_append_right (Nat.le_add_right _ _),
        Nat.add_sub_cancel_left, List.getElem?_map, hx]
      rfl
  · rw [List.pairwise_append, List.pairwise_map]
    rcases hcases hx with ⟨hi, hx⟩ | ⟨i, y, rfl, hy, rfl⟩
    · obtain ⟨hlt, horder⟩ := hpast.inOrder i x j hx hj
      refine ⟨hlt, horder, List.pairwise_of_forall fun a b ha => ?_, fun a _ b hb _ => ?_⟩
      · exact absurd ha (by simp only [Telling.renumber]; omega)
      · exact renumber_ne (hlt.trans hi) b hb
    · have hnone : ∀ a ∈ before, a.1 ≠ past.length + i := by
        intro a ha
        have := hold a ha
        omega
      have hbefore : before.Pairwise fun a b => a.1 = past.length + i → b.1 ≠ j :=
        List.pairwise_of_forall_mem_list fun a ha _ _ hai => absurd hai (hnone a ha)
      suffices h : j < past.length + i ∧
          after.Pairwise fun a b => (Telling.renumber past.length a).1 = past.length + i →
            (Telling.renumber past.length b).1 ≠ j from
        ⟨h.1, hbefore, h.2, fun a ha _ _ hai => absurd hai (hnone a ha)⟩
      rcases List.mem_append.mp hj with hj | hj
      · have hlt := mem_answeredIn hj
        refine ⟨by omega, List.pairwise_of_forall fun a b _ => ?_⟩
        simp only [Telling.renumber]
        omega
      · obtain ⟨l, hl, rfl⟩ := List.mem_map.mp hj
        obtain ⟨hlt, horder⟩ := hnow.inOrder i y l hy hl
        refine ⟨by omega, horder.imp fun {a b} h hai hbj => ?_⟩
        simp only [Telling.renumber] at hai hbj
        exact h (by omega) (by omega)

end

namespace Lives

variable {router : Router} {s s' : Lives} {k : Kitchen}

/-- The invariant: one history explains the past, and from where it ended another one goes on. -/
def Told (router : Router) (k : Kitchen) (s : Lives) : Prop :=
  Serving.Awaiting s.serving ∧ ∃ before k₁ after k',
    servedRuns.Run k before k₁ ∧ Serving.Explains router before s.past ∧
      servedRuns.Run k₁ after k' ∧ Depicts s.serving.executor.service k' ∧
      Serving.Told router s.serving after

/-- What the next process finds is what the last one left. -/
theorem depicts_onTables {m : DBManager} (h : Depicts m k) :
    Depicts (DBManager.onTables m.db.tables m.db.sequences) k where
  rests := ⟨h.rests.1, rfl⟩
  products := h.products
  recipes := h.recipes
  productsIssued := h.productsIssued
  recipesIssued := h.recipesIssued

/-- A process that starts has told nobody anything. -/
theorem told_start {service : DBManager} {queueCapacity : Nat} :
    Serving.Awaiting { executor := { service, queueCapacity } } ∧
      Serving.Told router { executor := { service, queueCapacity } } [] :=
  ⟨⟨Serving.tracked_start, by simp, by simp, List.nodup_nil, by simp⟩, by simp, by simp, by simp⟩

/-- Both histories together explain all requests. -/
theorem Told.explains (h : Told router k s) : ∃ history k', servedRuns.Run k history k' ∧
    Depicts s.serving.executor.service k' ∧ Serving.Explains router history s.requests := by
  obtain ⟨hs, before, k₁, after, k', hbefore, hexplains, hafter, hk', htold⟩ := h
  exact ⟨_, k', hbefore.append (run_renumber hafter), hk', hexplains.join (htold.explains hs)⟩

/-- The step lemma. -/
theorem Told.next (h : Told router k s) {event : LivesEvent}
    (hnext : s.next router event = some s') : Told router k s' := by
  cases event with
  | serve event =>
      obtain ⟨hs, before, k₁, after, k', hbefore, hexplains, hafter, hk', htold⟩ := h
      obtain ⟨serving, hserving, rfl⟩ := Option.map_eq_some_iff.mp hnext
      obtain ⟨more, k'', hmore, hk'', htold'⟩ := htold.next hs hk' hserving
      exact ⟨hs.next hserving, before, k₁, _, k'', hbefore, hexplains, hafter.append hmore, hk'',
        htold'⟩
  | restart queueCapacity =>
      simp only [Lives.next] at hnext
      split at hnext
      · obtain rfl := Option.some.inj hnext
        obtain ⟨history, k', hrun, hk', hexplains⟩ := h.explains
        obtain ⟨hs, htold⟩ := told_start
        exact ⟨hs, history, k', [], k', hrun, hexplains, .here, depicts_onTables hk', htold⟩
      · cases hnext

theorem told_of_reachable {start : Lives} (h : ((runs router).startingAt start).Reachable s)
    (hk : Depicts start.serving.executor.service k) : Told router k s := by
  refine h.invariant ?_ fun _ _ _ htold hstep => htold.next hstep
  rintro s ⟨⟨hinit, hpast⟩, rfl⟩
  obtain ⟨m, queueCapacity, -, -, hs⟩ := hinit
  have hnone : Serving.Explains router [] s.past := by
    rw [hpast]
    exact ⟨by simp, by simp, by simp⟩
  obtain ⟨hawaiting, htold⟩ : Serving.Awaiting s.serving ∧ Serving.Told router s.serving [] := by
    rw [hs]
    exact told_start
  exact ⟨hawaiting, [], k, [], k, .here, hnone, .here, hk, htold⟩

/-- **What was answered survives.** Over any number of processes, wherever each of them ends, there
is one history of one kitchen, from what the database depicted before the first to what it depicts
now, that explains all responses: what a later process answers, it answers from what the earlier
ones did. -/
theorem restarts_keep_the_kitchen {start : Lives}
    (h : ((runs router).startingAt start).Reachable s) :
    (∃ k, Depicts start.serving.executor.service k) ∧
      ∀ k, Depicts start.serving.executor.service k → ∃ history k', servedRuns.Run k history k' ∧
        Depicts s.serving.executor.service k' ∧ Serving.Explains router history s.requests := by
  have hinit : (Serving.runs router).init start.serving := by
    refine h.invariant (I := fun _ => (Serving.runs router).init start.serving) ?_
      fun _ _ _ h _ => h
    rintro s ⟨⟨hinit, -⟩, rfl⟩
    exact hinit
  exact ⟨Serving.exists_depicts hinit, fun k hk => (told_of_reachable h hk).explains⟩

def opened : Lives := { serving := Serving.opened 2 }

theorem opened_init : (runs router).init opened := ⟨Serving.opened_init (by decide), rfl⟩

def getMilk : Request := { method := .get, target := "/v1/products/1" }

/-- A `PUT` whose process ends before it is answered, and a `GET` to the next one. -/
def interruptedPut : List LivesEvent :=
  [.serve (.arrive (Serving.putProduct "/v1/products/1" Serving.lessMilk)), .serve (.advance 0),
    .serve .wake, .serve (.operate []), .restart 1, .serve (.arrive getMilk), .serve (.advance 0),
    .serve .wake, .serve (.operate []), .serve (.deliver 0), .serve (.advance 0)]

/-- The second process answers with the milk that the first one was sent. -/
theorem restarts_keep_the_kitchen_interrupted :
    let s := System.play (next Serving.milkRouter) opened interruptedPut
    (∃ history, Serving.Explains Serving.milkRouter history s.requests) ∧
      s.requests.map (fun x => x.progress.response) =
        [none, some (Serving.milkResponse Serving.lessMilk)] := by
  intro s
  have hinit : ((runs Serving.milkRouter).startingAt opened).init opened := ⟨opened_init, rfl⟩
  have hreach : ((runs Serving.milkRouter).startingAt opened).Reachable s :=
    System.Reachable.play (fun _ _ _ h => h) (.init hinit) interruptedPut
  obtain ⟨⟨k, hk⟩, hhistories⟩ := restarts_keep_the_kitchen hreach
  obtain ⟨history, -, -, -, hexplains⟩ := hhistories k hk
  exact ⟨⟨history, hexplains⟩, by decide +kernel⟩

end Lives

end RecipesCore.Net
