import RecipesCore.App.Runs
import RecipesCore.Server.Alone

/-!
# A product there and back

What a client sends with `POST` or `PUT` and what it gets back, from the JSON of the request to the
JSON of the response. `ParseProduct` and `ToProductResponse` both leave the dates out, so a product
comes back as `ProductRequest.undated` says.
-/

namespace RecipesCore.Api

/-- The product of a request, stored under an id and read again. -/
def ProductRequest.undated (product : ProductRequest) (id : Int) : ProductResponse :=
  { id, name := product.name, amount := product.amount, dimension := product.dimension }

end RecipesCore.Api

namespace RecipesCore.Net

open RecipesCore.Api
open RecipesCore.App
open RecipesCore.Db
open RecipesCore.Logic
open RecipesCore.Types

namespace Router

variable {router : Router} {request : Request} {m m' : DBManager} {turns : List Turn}

/-- The body of `response` is `product`. -/
def Carries (router : Router) (response : Response) (product : ProductResponse) : Prop :=
  router.glaze.serializeProduct product = .ok response.body

/-- `response` is a 200 with the five fields of `product`. -/
def Returns (router : Router) (product : ProductRequest) (response : Response) : Prop :=
  response.status = .ok ∧ ∃ found, router.Carries response found ∧
    found.name = product.name ∧ found.amount = product.amount ∧
    found.dimension = product.dimension ∧ found.manufacture = product.manufacture ∧
    found.expiration = product.expiration

theorem returns_undated_iff {product : ProductRequest} {response : Response} {productId : Int}
    (hglaze : router.glaze.WritesFields) (hstatus : response.status = .ok)
    (hbody : router.Carries response (product.undated productId)) :
    router.Returns product response ↔ product.manufacture = none ∧ product.expiration = none := by
  constructor
  · rintro ⟨-, found, hfound, -, -, -, hmanufacture, hexpiration⟩
    obtain rfl := hglaze _ _ _ hfound hbody
    exact ⟨hmanufacture.symm, hexpiration.symm⟩
  · rintro ⟨hmanufacture, hexpiration⟩
    exact ⟨hstatus, _, hbody, rfl, rfl, rfl, hmanufacture.symm, hexpiration.symm⟩

/-! ## The parts of the handlers -/

theorem parseProduct_failed {body message : String} {status : Status}
    (h : router.parseProduct body = .error (status, message)) : status.failed := by
  unfold parseProduct at h
  split at h
  · cases h
    decide
  · split at h
    · cases h
      decide
    · cases h

/-- What is stored of a product, and how it is written again. -/
theorem parseProduct_eq_ok {body : String} {product : ProductRequest} {stored : Product}
    (hbody : router.glaze.parseProductRequest body = .ok product)
    (h : router.parseProduct body = .ok stored) (productId : Int) :
    stored.dates = {} ∧
      toProductResponse { stored with id := some productId } = product.undated productId := by
  simp only [parseProduct, hbody] at h
  split at h
  · cases h
  · next dimension hdimension =>
      cases h
      refine ⟨rfl, ?_⟩
      simp only [toProductResponse, ProductRequest.undated, Option.getD_some,
        ← (parseDimension_eq_some.mp hdimension).2]

/-- A response with a 2xx status was written. -/
theorem serialized_ok {status : Status} {what : String} {json : Except String String}
    (h : ¬ (router.serialized status request what json).status.failed) :
    json = .ok (router.serialized status request what json).body := by
  cases json with
  | error e => exact absurd (by decide : Status.internalServerError.failed) h
  | ok body => rfl

theorem handleAsync_products
    (h : (request.target = "/v1/products" ∧ (request.method = .get ∨ request.method = .post)) ∨
      ((parseProductId request.target).isSome ∧
        (request.method = .get ∨ request.method = .put ∨ request.method = .delete))) :
    router.handleAsync request = router.handleProducts request (parseProductId request.target) := by
  simp only [handleAsync, if_pos h]

/-- Without an executor there is no 2xx response. -/
theorem amid_handleProducts {response : Response} {productId : Option Int}
    (h : (router.handleProducts request productId).amid turns m = (response, m'))
    (hstatus : ¬ response.status.failed) : router.databaseExecutor = true := by
  unfold handleProducts at h
  split at h
  · next hexecutor => exact hexecutor
  · obtain ⟨rfl, -⟩ := Prod.mk.inj h
    exact absurd (by decide : Status.serviceUnavailable.failed) hstatus

/-! ## The requests -/

section

variable {response : Response} {product : ProductRequest} {productId : Int}

/-- A created product is answered, and is stored as it was answered. -/
theorem amid_createProduct (hv : Store.Valid m.db.tables m.db.sequences)
    (hbody : router.glaze.parseProductRequest request.body = .ok product)
    (h : (router.createProduct request).amid turns m = (response, m'))
    (hstatus : ¬ response.status.failed) :
    ∃ productId, 0 < productId ∧ productId < 2 ^ 63 ∧
      router.Carries response (product.undated productId) ∧
      ∃ stored, findProduct m'.db.tables productId = some stored ∧
        toProductResponse stored = product.undated productId := by
  obtain ⟨stored, hstored, h⟩ := amid_withBody h (fun _ _ => parseProduct_failed) hstatus
  obtain ⟨created, hcreated, h⟩ := amid_submit h hstatus
  obtain ⟨rfl, rfl⟩ := Prod.mk.inj h
  have hdb := afterReads_db (turns.headD {}).reads m
  obtain ⟨productId, hpos, hbound, rfl, hfind⟩ := call_createProduct_eq_ok hcreated (hdb ▸ hv)
    (parseProduct_eq_ok hbody hstored 0).1
  have hwritten := (parseProduct_eq_ok hbody hstored productId).2
  refine ⟨productId, hpos, hbound, ?_, _, hfind, hwritten⟩
  rw [Carries, ← hwritten]
  exact serialized_ok hstatus

/-- A product that is answered is the one that is stored. -/
theorem amid_getProduct (h : (router.getProduct request productId).amid turns m = (response, m'))
    (hstatus : ¬ response.status.failed) :
    response.status = .ok ∧ ∃ stored, findProduct m.db.tables productId = some stored ∧
      router.Carries response (toProductResponse stored) := by
  obtain ⟨found, hfound, h⟩ := amid_submit h hstatus
  have hexact := call_getProduct_eq_ok hfound
  rw [afterReads_db] at hexact
  cases found with
  | none =>
      obtain ⟨rfl, -⟩ := Prod.mk.inj h
      exact absurd (by decide : Status.notFound.failed) hstatus
  | some stored =>
      obtain ⟨rfl, -⟩ := Prod.mk.inj h
      have hbody := serialized_ok hstatus
      refine ⟨?_, stored, hexact.symm, hbody⟩
      rw [hbody]
      rfl

/-- A stored product is answered exactly when its `SELECT` succeeds. -/
theorem amid_getProduct_succeeds_iff {stored : Product}
    (hfind : findProduct m.db.tables productId = some stored) {body : String}
    (hbody : router.glaze.serializeProduct (toProductResponse stored) = .ok body) :
    ¬ ((router.getProduct request productId).amid turns m).1.status.failed ↔
      (turns.headD {}).Reads .selectProductById m := by
  have hiff : (∃ found, ((ServiceOperation.getProduct productId).call (turns.headD {}).environment
      (afterReads (turns.headD {}).reads m)).1 = .ok found) ↔ _ := call_getProduct_returns_iff
  rw [Turn.Reads, ← hiff]
  constructor
  · intro hstatus
    obtain ⟨found, hfound, -⟩ := amid_submit (k := _) rfl hstatus
    exact ⟨found, hfound⟩
  · rintro ⟨found, hfound⟩
    have hexact := call_getProduct_eq_ok hfound
    rw [afterReads_db, hfind] at hexact
    simp only [getProduct, Task.amid, hfound, hexact, orAppError, Router.found, hbody, serialized]
    show ¬ Status.ok.failed
    decide

/-- An updated product is answered as it was stored. -/
theorem amid_updateProduct (hbody : router.glaze.parseProductRequest request.body = .ok product)
    (h : (router.updateProduct request productId).amid turns m = (response, m'))
    (hstatus : ¬ response.status.failed) :
    response.status = .ok ∧ router.Carries response (product.undated productId) := by
  obtain ⟨stored, hstored, h⟩ := amid_withBody h (fun _ _ => parseProduct_failed) hstatus
  obtain ⟨updated, hupdated, h⟩ := amid_submit h hstatus
  have hparsed := parseProduct_eq_ok hbody hstored productId
  obtain ⟨hok, found, hfound, hcarries⟩ := amid_getProduct h hstatus
  rw [call_updateProduct_eq_ok hupdated hparsed.1] at hfound
  obtain rfl := Option.some.inj hfound
  exact ⟨hok, hparsed.2 ▸ hcarries⟩

end

/-! ## The round trip -/

/-- **A product comes back with its five fields exactly when it was sent without dates.** A `POST`
answered 201 carries an id; until somebody writes, a `GET` of that id returns the fields, provided
that the product had no dates, and that the `SELECT` of the `GET` succeeds. A `PUT` answered 200
returns the fields exactly when the product has no dates. -/
theorem product_round_trip_iff (hglaze : router.glaze.WritesFields) (hm : managerRuns.Reachable m)
    (product : ProductRequest) :
    (∀ post turns response m', post.method = .post → post.target = "/v1/products" →
      router.glaze.parseProductRequest post.body = .ok product →
      (router.handleAsync post).amid turns m = (response, m') → response.status = .created →
      ∃ created, router.Carries response created ∧
        parseProductId ("/v1/products/" ++ toString created.id) = some created.id ∧
        ∀ get turns, get.method = .get → parseProductId get.target = some created.id →
          (router.Returns product ((router.handleAsync get).amid turns m').1 ↔
            (product.manufacture = none ∧ product.expiration = none) ∧
              (turns.headD {}).Reads .selectProductById m')) ∧
    ∀ put productId turns response m', put.method = .put →
      parseProductId put.target = some productId →
      router.glaze.parseProductRequest put.body = .ok product →
      (router.handleAsync put).amid turns m = (response, m') → response.status = .ok →
      (router.Returns product response ↔
        product.manufacture = none ∧ product.expiration = none) := by
  constructor
  · intro post turns response m' hmethod htarget hbody h hcreated
    have hstatus : ¬ response.status.failed := by
      rw [hcreated]
      decide
    rw [handleAsync_products (Or.inl ⟨htarget, Or.inr hmethod⟩)] at h
    have hexecutor := amid_handleProducts h hstatus
    simp only [handleProducts, hexecutor, hmethod, if_true] at h
    obtain ⟨productId, hpos, hbound, hcarries, stored, hfind, hwritten⟩ :=
      amid_createProduct (rests_valid hm).1 hbody h hstatus
    refine ⟨_, hcarries, parseId_toString hpos hbound, fun get turns hget hid => ?_⟩
    have htask : router.handleAsync get = router.getProduct get productId := by
      rw [handleAsync_products (Or.inr ⟨by simp [hid], Or.inl hget⟩)]
      simp only [handleProducts, hexecutor, hget, hid, if_true]
      rfl
    have hsucceeds : ¬ ((router.getProduct get productId).amid turns m').1.status.failed ↔ _ :=
      amid_getProduct_succeeds_iff hfind (hwritten ▸ hcarries)
    rw [htask, ← hsucceeds]
    rcases hrun : (router.getProduct get productId).amid turns m' with ⟨answer, m₁⟩
    by_cases hgot : answer.status.failed
    · simp only [hgot, not_true_eq_false, and_false, iff_false]
      rintro ⟨hok, -⟩
      rw [hok] at hgot
      exact absurd hgot (by decide)
    · obtain ⟨hok, found, hfound, hcarries⟩ := amid_getProduct hrun hgot
      obtain rfl := Option.some.inj (hfind.symm.trans hfound)
      rw [returns_undated_iff hglaze hok (hwritten ▸ hcarries)]
      simp only [hgot, not_false_eq_true, and_true]
  · intro put productId turns response m' hmethod hid hbody h hok
    have hstatus : ¬ response.status.failed := by
      rw [hok]
      decide
    rw [handleAsync_products (Or.inr ⟨by simp [hid], Or.inr (Or.inl hmethod)⟩)] at h
    have hexecutor := amid_handleProducts h hstatus
    simp only [handleProducts, hexecutor, hmethod, hid, if_true] at h
    obtain ⟨-, hcarries⟩ := amid_updateProduct hbody h hstatus
    exact returns_undated_iff hglaze hok hcarries

/-! ## The kitchen's rice -/

def rice : ProductRequest := { name := "rice", amount := 2, dimension := "kg" }

/-- The same rice, with the date it expires on. -/
def datedRice : ProductRequest := { rice with expiration := some "2027-01-31" }

/-- A router whose Glaze knows the rice and what the kitchen stores of it. -/
def riceRouter : Router where
  glaze := { Glaze.plain [rice, datedRice] [] with
    serializeProduct := fun response =>
      if response = rice.undated 2 then .ok response.json else .error "not rice" }

theorem riceRouter_carries {response : Response} {found : ProductResponse}
    (h : riceRouter.Carries response found) : found = rice.undated 2 := by
  simp only [Carries, riceRouter] at h
  split at h
  · assumption
  · cases h

theorem riceRouter_writesFields : riceRouter.glaze.WritesFields := by
  intro found found' body h h'
  have hfound : riceRouter.Carries { status := .ok, version := 11, body } found := h
  have hfound' : riceRouter.Carries { status := .ok, version := 11, body } found' := h'
  exact (riceRouter_carries hfound).trans (riceRouter_carries hfound').symm

def postProduct (product : ProductRequest) : Request :=
  { method := .post, target := "/v1/products", contentType := "application/json"
    body := product.json }

def getRice : Request := { method := .get, target := "/v1/products/2" }

/-- Stored rice comes back; a list of the products is read in between. -/
theorem product_round_trip_rice :
    riceRouter.Returns rice ((riceRouter.handleAsync getRice).amid
      [{ reads := [{ operation := .getProducts, onlyReads := rfl }] }]
      ((riceRouter.handleAsync (postProduct rice)).amid [] (afterCalls kitchenCalls)).2).1 := by
  obtain ⟨created, hcarries, -, hget⟩ := (product_round_trip_iff riceRouter_writesFields
    (reachable_afterCalls kitchenCalls) rice).1 (postProduct rice) [] _ _ rfl rfl
    (by decide +kernel) Prod.mk.eta.symm (by decide +kernel)
  obtain rfl := riceRouter_carries hcarries
  exact (hget getRice _ rfl (by decide +kernel)).mpr
    ⟨⟨rfl, rfl⟩, by decide +kernel, 0, by decide +kernel⟩

/-- The date of dated rice is lost: the `POST` is answered with 201 and the `GET` with 200. -/
theorem product_date_is_lost :
    managerRuns.Reachable (afterCalls kitchenCalls) ∧
      riceRouter.glaze.parseProductRequest (postProduct datedRice).body = .ok datedRice ∧
      ((riceRouter.handleAsync (postProduct datedRice)).amid [] (afterCalls kitchenCalls)).1.status =
        .created ∧
      ((riceRouter.handleAsync getRice).amid []
        ((riceRouter.handleAsync (postProduct datedRice)).amid []
          (afterCalls kitchenCalls)).2).1.status = .ok ∧
      ¬ riceRouter.Returns datedRice ((riceRouter.handleAsync getRice).amid []
        ((riceRouter.handleAsync (postProduct datedRice)).amid [] (afterCalls kitchenCalls)).2).1 := by
  refine ⟨reachable_afterCalls kitchenCalls, by decide +kernel, by decide +kernel,
    by decide +kernel, ?_⟩
  rintro ⟨-, found, hfound, -, -, -, -, hexpiration⟩
  rw [riceRouter_carries hfound] at hexpiration
  cases hexpiration

end Router

end RecipesCore.Net
