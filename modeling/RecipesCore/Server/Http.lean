/-!
# HTTP messages

The parts of `http::request` and `http::response` that the router and the sessions look at or set.
-/

namespace RecipesCore.Net

/-- `http::verb`; the router tells four of them from the rest. -/
inductive Verb where
  | get
  | post
  | put
  | delete
  | other
  deriving DecidableEq, Repr

/-- `http::status`. -/
inductive Status where
  | ok
  | created
  | noContent
  | badRequest
  | notFound
  | methodNotAllowed
  | conflict
  | payloadTooLarge
  | unsupportedMediaType
  | unprocessableEntity
  | internalServerError
  | serviceUnavailable
  deriving DecidableEq, Repr

def Status.code : Status → Nat
  | .ok => 200
  | .created => 201
  | .noContent => 204
  | .badRequest => 400
  | .notFound => 404
  | .methodNotAllowed => 405
  | .conflict => 409
  | .payloadTooLarge => 413
  | .unsupportedMediaType => 415
  | .unprocessableEntity => 422
  | .internalServerError => 500
  | .serviceUnavailable => 503

/-- A 2xx status. -/
def Status.succeeded (status : Status) : Prop := 200 ≤ status.code ∧ status.code < 300

/-- A 4xx or 5xx status. -/
def Status.failed (status : Status) : Prop := 400 ≤ status.code

instance (status : Status) : Decidable status.succeeded :=
  inferInstanceAs (Decidable (_ ∧ _))

instance (status : Status) : Decidable status.failed :=
  inferInstanceAs (Decidable (_ ≤ _))

/-- The code sends no 1xx and no 3xx. -/
theorem Status.succeeded_iff (status : Status) : status.succeeded ↔ ¬ status.failed := by
  cases status <;> decide

/-- A default-constructed request is what a parser holds before it read anything. -/
structure Request where
  method : Verb := .other
  target : String := ""
  version : Nat := 11
  keepAlive : Bool := true
  contentType : String := ""
  body : String := ""
  deriving DecidableEq, Repr

/-- A header field that was never set is `none`. -/
structure Response where
  status : Status
  version : Nat
  keepAlive : Bool := true
  contentType : Option String := none
  xContentTypeOptions : Option String := none
  contentLength : Option Nat := none
  allow : Option String := none
  strictTransportSecurity : Option String := none
  body : String := ""
  deriving DecidableEq, Repr

/-- `prepare_payload()` of a response that may have a body. -/
def Response.preparePayload (response : Response) : Response :=
  { response with contentLength := some response.body.length }

end RecipesCore.Net
