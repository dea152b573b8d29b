import RecipesCore.Server.Consistency
import RecipesCore.Server.RoundTrip

/-!
# What a `POST` creates

A `POST` that succeeds has made an item under an id of its own: the response carries it, a later
`GET` of it shows the same unless another request may have changed it, and no other `POST` to any
process ever gets the id, even after a `DELETE`. `Creations` says of products and of recipes what
this rests on.
-/

namespace RecipesCore.Net

open RecipesCore.Api
open RecipesCore.App RecipesCore.App.DatabaseExecutor
open RecipesCore.Logic
open RecipesCore.Relational
open RecipesCore.Types

/-! ## Which answer is behind a 201 -/

namespace Router

variable {router : Router} {request : Request} {answers : List Answered} {response : Response}

/-- Without an executor, nothing is created. -/
theorem handleAsync_post_unavailable (hexecutor : router.databaseExecutor = false)
    {collection : Resource}
    (hcollection : collection = .productCollection ∨ collection = .recipeCollection)
    (hnamed : collection.Named request.target) (hmethod : request.method = .post) :
    router.handleAsync request = .done (router.serviceUnavailable request) := by
  rcases hcollection with rfl | rfl
  · have htarget : request.target = "/v1/products" := hnamed
    simp [handleAsync, handleProducts, htarget, hmethod, hexecutor]
  · have htarget : request.target = "/v1/recipes" := hnamed
    have hid : parseProductId "/v1/recipes" = none := (parseIds_fixed _ (by decide)).1
    simp [handleAsync, htarget, hmethod, hexecutor, hid]

theorem handler_of_post {collection : Resource}
    (hcollection : collection = .productCollection ∨ collection = .recipeCollection)
    (hnamed : collection.Named request.target) (hmethod : request.method = .post)
    (h : (router.handleAsync request).Hears answers (.done response))
    (hsucceeded : response.status.succeeded) :
    (router.handler request collection .post).Hears answers (.done response) := by
  cases hexecutor : router.databaseExecutor with
  | false =>
      rw [handleAsync_post_unavailable hexecutor hcollection hnamed hmethod] at h
      obtain ⟨-, rfl⟩ := hears_done h
      exact absurd rfl (status_of_succeeded hsucceeded).1
  | true =>
      have hsupports : collection.supports .post = true := by
        rcases hcollection with rfl | rfl <;> rfl
      rwa [handleAsync_named hexecutor hnamed, hmethod, if_pos hsupports] at h

/-- A create that is answered 2xx was told one answer, with the object that the response carries. -/
theorem hears_created {operation : ServiceOperation} {what : String}
    {write : operation.Result → Except String String}
    (h : (Task.submit operation (router.orAppError request fun created =>
      .done (router.serialized .created request what (write created)))).Hears answers
        (.done response)) (hsucceeded : response.status.succeeded) :
    ∃ created, answers = [⟨operation, .ok created⟩] ∧ write created = .ok response.body := by
  rcases hears_submit h with ⟨error, -, rfl⟩ | ⟨created, rest, rfl, hrest⟩
  · exact absurd hsucceeded appError_not_succeeded
  · obtain ⟨rfl, rfl⟩ := hears_done hrest
    exact ⟨created, rfl, serialized_ok ((Status.succeeded_iff _).mp hsucceeded)⟩

end Router

/-! ## What clients rely on -/

/-- The item of a collection. -/
def Resource.item : Resource → Int → Resource
  | .productCollection, productId => .productItem productId
  | .recipeCollection, recipeId => .recipeItem recipeId
  | other, _ => other

/-- The body is that of an object of the collection with this id. -/
def Router.Describes (router : Router) (id : Int) (body : String) : Resource → Prop
  | .productCollection => ∃ product : Product, product.id = some id ∧
      router.glaze.serializeProduct (toProductResponse product) = .ok body
  | .recipeCollection => ∃ recipe : Recipe, recipe.id = some id ∧
      router.glaze.serializeRecipe (toRecipeResponse recipe) = .ok body
  | _ => False

/-- A `POST` that succeeded. -/
def Exchange.Created (collection : Resource) (x : Exchange) (response : Response) : Prop :=
  collection.Named x.request.target ∧ x.request.method = .post ∧
    x.progress = .answered response ∧ response.status.succeeded

/-- `ids` says what each `POST` to the collection has created.

* Its response carries the object with this id.
* A later `GET` of it is not answered 404, and its 200 has the same body, as long as no request is a
  `PUT` or `DELETE` of it.
* No two have created the same. -/
structure Creates (router : Router) (collection : Resource) (requests : List Exchange)
    (ids : Nat → Int) : Prop where
  carries : ∀ (i : Nat) x response, requests[i]? = some x → x.Created collection response →
    router.Describes (ids i) response.body collection
  stays : ∀ (i : Nat) x response (j : Nat) y response', requests[i]? = some x →
    x.Created collection response → requests[j]? = some y → i ∈ y.earlier →
    (collection.item (ids i)).Named y.request.target → y.request.method = .get →
    y.progress = .answered response' →
    (∀ z ∈ requests, (collection.item (ids i)).Named z.request.target →
      z.request.method ≠ .put ∧ z.request.method ≠ .delete) →
    response'.status ≠ .notFound ∧
      (response'.status.succeeded → response'.body = response.body)
  distinct : ∀ (i : Nat) x response (j : Nat) y response', requests[i]? = some x →
    x.Created collection response → requests[j]? = some y → y.Created collection response' →
    i ≠ j → ids i ≠ ids j

/-! ## Collections of one kind -/

/-- What a create of this kind answers, and what it does to the catalogue. -/
structure Creations {α κ : Type} {label : α → Option Int} {key : α → κ} {router : Router}
    {catalogue : Kitchen → Catalogue label key} (items : Items router catalogue) where
  collection : Resource
  created : α → Answered → Prop
  isOk : ∀ {a l}, created a l → l.2.isOk = true
  leaves : ∀ {id a l}, created a l → label a = some id → items.leaves id l (some a)
  fresh : ∀ {a l k k'}, created a l → kitchenRuns.step k l k' → ∃ id, label a = some id ∧
    (catalogue k).issued < id ∧ id ≤ (catalogue k').issued
  item : ∀ id, collection.item id = items.resource id
  carries : ∀ {id a body}, label a = some id → items.write a = .ok body →
    router.Describes id body collection
  attests : ∀ {request answers response}, collection.Named request.target →
    request.method = .post → (router.handleAsync request).Hears answers (.done response) →
      response.status.succeeded →
        ∃ a l, answers = [l] ∧ created a l ∧ items.write a = .ok response.body

namespace Creations

variable {α κ : Type} {label : α → Option Int} {key : α → κ} {router : Router}
  {catalogue : Kitchen → Catalogue label key} {items : Items router catalogue}

section

variable (creations : Creations items) {exchanges : List Exchange} {history : List Telling}
  {k k' : Kitchen} {i j : Nat} {x y : Exchange} {response response' : Response} {id id' : Int}

/-- Request `i` was told that it has created an item with this id and body. -/
def Makes (history : List Telling) (i : Nat) (id : Int) (body : String) : Prop :=
  ∃ a l, answersTo i history = [l] ∧ creations.created a l ∧ label a = some id ∧
    items.write a = .ok body

/-- Ids are given out upwards. -/
theorem issued_mono (items : Items router catalogue) (hrun : servedRuns.Run k history k') :
    (catalogue k).issued ≤ (catalogue k').issued := by
  refine System.Run.keeps (I := fun k' => (catalogue k).issued ≤ (catalogue k').issued)
    (C := fun _ => True) ?_ le_rfl hrun fun _ _ => trivial
  intro k₁ telling k₂ _ hle hstep
  exact hle.trans (items.served.steady hstep le_rfl).counted

/-- Of two creates, the later one gets the greater id. -/
theorem lt_of_run {front between after : List Telling} {a b : α} {l l' : Answered}
    (hrun : servedRuns.Run k (front ++ (i, l) :: (between ++ (j, l') :: after)) k')
    (hl : creations.created a l) (hl' : creations.created b l') (ha : label a = some id)
    (hb : label b = some id') : id < id' := by
  obtain ⟨_, -, hrest⟩ := System.run_append.mp hrun
  obtain ⟨k₁, hfirst, hrest⟩ := System.run_cons.mp hrest
  obtain ⟨k₂, hbetween, hrest⟩ := System.run_append.mp hrest
  obtain ⟨_, hlast, -⟩ := System.run_cons.mp hrest
  obtain ⟨_, ha', -, hle⟩ := creations.fresh hl (step_of_isOk hfirst (creations.isOk hl))
  obtain ⟨_, hb', hlt, -⟩ := creations.fresh hl' (step_of_isOk hlast (creations.isOk hl'))
  obtain rfl := Option.some_inj.mp (ha.symm.trans ha')
  obtain rfl := Option.some_inj.mp (hb.symm.trans hb')
  exact (hle.trans (issued_mono items hbetween)).trans_lt hlt

theorem mem_of_answersTo {l : Answered} (h : answersTo i history = [l]) : (i, l) ∈ history := by
  have hl : l ∈ answersTo i history := h ▸ List.mem_singleton_self l
  obtain ⟨⟨i', l'⟩, hfiltered, rfl⟩ := List.mem_map.mp hl
  obtain ⟨hmem, hi⟩ := List.mem_filter.mp hfiltered
  obtain rfl : i' = i := of_decide_eq_true hi
  exact hmem

theorem makes_ne {body body' : String} (hrun : servedRuns.Run k history k') (hne : i ≠ j)
    (hi : creations.Makes history i id body) (hj : creations.Makes history j id' body') :
    id ≠ id' := by
  obtain ⟨a, l, hl, hcreated, ha, -⟩ := hi
  obtain ⟨b, l', hl', hcreated', hb, -⟩ := hj
  obtain ⟨front, rest, rfl⟩ := List.append_of_mem (mem_of_answersTo hl)
  rcases List.mem_append.mp (mem_of_answersTo hl') with hfront | hrest
  · obtain ⟨before, between, rfl⟩ := List.append_of_mem hfront
    rw [List.append_assoc, List.cons_append] at hrun
    exact (creations.lt_of_run hrun hcreated' hcreated hb ha).ne'
  · rcases List.mem_cons.mp hrest with heq | hrest
    · exact absurd (congrArg Prod.fst heq).symm hne
    · obtain ⟨between, after, rfl⟩ := List.append_of_mem hrest
      exact (creations.lt_of_run hrun hcreated hcreated' ha hb).ne

/-- A `POST` that succeeded has made an item. -/
theorem exists_makes (hrun : servedRuns.Run k history k')
    (hexplains : Serving.Explains router history exchanges) (hx : exchanges[i]? = some x)
    (h : x.Created creations.collection response) :
    ∃ id, creations.Makes history i id response.body := by
  obtain ⟨hnamed, hmethod, hanswered, hsucceeded⟩ := h
  obtain ⟨a, l, hanswers, hl, hbody⟩ :=
    creations.attests hnamed hmethod (hexplains.responses i x response hx hanswered) hsucceeded
  obtain ⟨before, after, hsplit⟩ := List.append_of_mem (mem_of_answersTo hanswers)
  rw [hsplit] at hrun
  obtain ⟨k₁, -, hrest⟩ := System.run_append.mp hrun
  obtain ⟨k₂, hstep, -⟩ := System.run_cons.mp hrest
  obtain ⟨id, ha, -⟩ := creations.fresh hl (step_of_isOk hstep (creations.isOk hl))
  exact ⟨id, a, l, hanswers, hl, ha, hbody⟩

theorem exists_ids (hrun : servedRuns.Run k history k')
    (hexplains : Serving.Explains router history exchanges) :
    ∃ ids, Creates router creations.collection exchanges ids := by
  have hmakes : ∀ i, ∃ id, ∀ x response, exchanges[i]? = some x →
      x.Created creations.collection response → creations.Makes history i id response.body := by
    intro i
    by_cases h : ∃ x response, exchanges[i]? = some x ∧ x.Created creations.collection response
    · obtain ⟨x, response, hx, hcreated⟩ := h
      obtain ⟨id, hmakes⟩ := creations.exists_makes hrun hexplains hx hcreated
      refine ⟨id, fun x' response' hx' hcreated' => ?_⟩
      obtain rfl := Option.some.inj (hx.symm.trans hx')
      obtain rfl := Progress.answered.inj (hcreated.2.2.1.symm.trans hcreated'.2.2.1)
      exact hmakes
    · exact ⟨0, fun x response hx hcreated => absurd ⟨x, response, hx, hcreated⟩ h⟩
  choose ids hids using hmakes
  refine ⟨ids, fun i x response hx hcreated => ?_, ?_, ?_⟩
  · obtain ⟨a, l, -, -, ha, hbody⟩ := hids i x response hx hcreated
    exact creations.carries ha hbody
  · intro i x response j y response' hx hcreated hy hearlier hynamed hymethod hyanswered hothers
    obtain ⟨a, l, hanswers, hl, ha, hbody⟩ := hids i x response hx hcreated
    rw [creations.item] at hynamed hothers
    have hfront : answersTo i history = [] ++ [l] := hanswers
    exact items.kept hrun hexplains hy hearlier hfront (creations.leaves hl ha) hbody hynamed
      hyanswered hymethod fun n z hz _ => hothers z (List.mem_of_getElem? hz)
  · intro i x response j y response' hx hcreated hy hcreated' hne
    exact creations.makes_ne hrun hne (hids i x response hx hcreated)
      (hids j y response' hy hcreated')

end

end Creations

/-! ## Products and recipes -/

def productCreations (router : Router) : Creations (productItems router) where
  collection := .productCollection
  created created l := ∃ product, l = ⟨.createProduct product, .ok created⟩
  isOk := by
    rintro _ _ ⟨_, rfl⟩
    rfl
  leaves := by
    rintro _ _ _ ⟨_, rfl⟩ hid
    exact .created hid
  fresh := by
    rintro _ _ k k' ⟨product, rfl⟩ ⟨-, -, productId, rfl, hadds⟩
    obtain ⟨hlabel, hid, hfree, hnew⟩ := hadds
    refine ⟨productId, hlabel, hid, ?_⟩
    rw [hnew]
    rfl
  item _ := rfl
  carries hid hbody := ⟨_, hid, hbody⟩
  attests := by
    intro request answers response hnamed hmethod h hsucceeded
    have hcreate := Router.handler_of_post (Or.inl rfl) hnamed hmethod h hsucceeded
    obtain ⟨product, hcreate⟩ := Router.hears_withBody
      (fun _ _ h => Router.parse_failed (Router.parseProduct_error h)) hcreate hsucceeded
    obtain ⟨created, hanswers, hbody⟩ := Router.hears_created hcreate hsucceeded
    exact ⟨created, _, hanswers, ⟨product, rfl⟩, hbody⟩

def recipeCreations (router : Router) : Creations (recipeItems router) where
  collection := .recipeCollection
  created created l := ∃ recipe, l = ⟨.createRecipe recipe, .ok created⟩
  isOk := by
    rintro _ _ ⟨_, rfl⟩
    rfl
  leaves := by
    rintro _ _ _ ⟨_, rfl⟩ hid
    exact .created hid
  fresh := by
    rintro _ _ k k' ⟨recipe, rfl⟩ ⟨-, -, ingredients, recipeId, -, rfl, hadds⟩
    obtain ⟨hlabel, hid, hfree, hnew⟩ := hadds
    refine ⟨recipeId, hlabel, hid, ?_⟩
    rw [hnew]
    rfl
  item _ := rfl
  carries hid hbody := ⟨_, hid, hbody⟩
  attests := by
    intro request answers response hnamed hmethod h hsucceeded
    have hcreate := Router.handler_of_post (Or.inr rfl) hnamed hmethod h hsucceeded
    obtain ⟨recipe, hcreate⟩ := Router.hears_withBody
      (fun _ _ h => Router.parse_failed (Router.parseRecipe_error h)) hcreate hsucceeded
    obtain ⟨created, hanswers, hbody⟩ := Router.hears_created hcreate hsucceeded
    exact ⟨created, _, hanswers, ⟨recipe, rfl⟩, hbody⟩

namespace Lives

variable {router : Router} {s : Lives} {collection : Resource}

/-- **What is created stays**, in every run, over restarts, and whatever else is asked meanwhile. -/
theorem created_items_stay (h : (runs router).Reachable s)
    (hcollection : collection = .productCollection ∨ collection = .recipeCollection) :
    ∃ ids, Creates router collection s.requests ids := by
  obtain ⟨start, hinit, hreach⟩ := h.exists_start
  obtain ⟨k, hk⟩ := Serving.exists_depicts hinit.1
  obtain ⟨history, k', hrun, -, hexplains⟩ := (told_of_reachable hreach hk).explains
  rcases hcollection with rfl | rfl
  · exact (productCreations router).exists_ids hrun hexplains
  · exact (recipeCreations router).exists_ids hrun hexplains

def storeRouter : Router := { glaze := Glaze.plain [Router.rice] [] }

/-- A request that is answered before anything else happens. -/
def alone (i : Nat) (request : Request) : List LivesEvent :=
  [.serve (.arrive request), .serve (.advance i), .serve .wake, .serve (.operate []),
    .serve (.deliver 0), .serve (.advance i)]

/-- Rice is created and deleted, and created again by the next process. -/
def riceTwice : List LivesEvent :=
  alone 0 (Router.postProduct Router.rice) ++
    alone 1 { method := .delete, target := "/v1/products/2" } ++
      .restart 1 :: alone 0 (Router.postProduct Router.rice)

def servedRice : Lives := System.play (next storeRouter) opened riceTwice

theorem servedRice_requests :
    (servedRice.requests.map fun x => (x.request.target, x.request.method, x.progress.status)) =
      [("/v1/products", .post, some .created), ("/v1/products/2", .delete, some .noContent),
        ("/v1/products", .post, some .created)] := by
  decide +kernel

/-- The rice of the second process has another id. -/
theorem created_items_stay_rice :
    ∃ ids, Creates storeRouter .productCollection servedRice.requests ids ∧ ids 0 ≠ ids 2 := by
  have hreach : (runs storeRouter).Reachable servedRice :=
    System.Reachable.play (fun _ _ _ h => h) (.init opened_init) riceTwice
  obtain ⟨ids, hids⟩ := created_items_stay hreach (Or.inl rfl)
  obtain ⟨x, rest, hall, hx, hrest⟩ := List.map_eq_cons_iff.mp servedRice_requests
  obtain ⟨y, rest, rfl, -, hrest⟩ := List.map_eq_cons_iff.mp hrest
  obtain ⟨z, rfl, hz⟩ := List.map_eq_singleton_iff.mp hrest
  have hcreated : ∀ w : Exchange, (w.request.target, w.request.method, w.progress.status) =
      ("/v1/products", .post, some .created) →
        ∃ response, w.Created .productCollection response := by
    intro w hw
    simp only [Prod.mk.injEq] at hw
    obtain ⟨htarget, hmethod, hstatus⟩ := hw
    obtain ⟨response, hanswered, hcreated⟩ := Progress.answered_of_status hstatus
    exact ⟨response, htarget, hmethod, hanswered, by rw [hcreated]; decide⟩
  obtain ⟨response, hx⟩ := hcreated x hx
  obtain ⟨response', hz⟩ := hcreated z hz
  exact ⟨ids, hids, hids.distinct 0 x response 2 z response' (by simp [hall]) hx (by simp [hall]) hz
    (by decide)⟩

end Lives

end RecipesCore.Net
