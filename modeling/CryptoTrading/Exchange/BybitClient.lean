import CryptoTrading.Kit.Dict
import CryptoTrading.Kit.Fallible
import CryptoTrading.Models

/-! The client of the exchange as far as `place_order` reaches, between an exchange that accepts each
`orderLinkId` at most once and a network that may lose a request or put any answer in the place of
the exchange's own. -/

namespace CryptoTrading

open Kit

/-- A value of a JSON document, as `json.loads` returns it: an object has one entry for each key. -/
inductive Json
  | null
  | bool (value : Bool)
  | int (value : ℤ)
  | float (value : ℚ)
  | string (value : String)
  | array (items : List Json)
  | object (fields : List (String × Json))

/-- What reading a body as JSON raises.  Only the first is a `json.JSONDecodeError`. -/
inductive JsonError
  | jsonDecodeError (message : String)
  | unicodeDecodeError (message : String)
  | valueError (message : String)
  | recursionError (message : String)

/-- What `httpx` raises in the place of a response, by its classes. -/
inductive RequestError
  | timeoutException (message : String)
  | networkError (message : String)
  | protocolError (message : String)
  | proxyError (message : String)
  | unsupportedProtocol (message : String)
  | decodingError (message : String)

/-- An `httpx.Response`: `error` is the text of the error that `raise_for_status` makes of it. -/
structure Response where
  statusCode : ℕ
  error : String := ""
  body : Except JsonError Json

/-- What the calls of the client raise.  The text of a message is its `str`. -/
inductive ClientError
  | valueError (message : String)
  | runtimeError (message : String)
  | attributeError
  | typeError
  | keyError
  | request (error : RequestError)
  | json (error : JsonError)
  | httpStatusError (message : String)
  | exchangeTimeout (message : String)
  | exchangeAuth (message : Json)
  | exchangeRateLimit (message : Json)
  | exchangeAPIReject (message : Json) (code : Option ℤ)
  | unknownOrderState (clientOrderId : String)

namespace Json

/-- `bool(value)`. -/
def truthy : Json → Bool
  | null => false
  | bool value => value
  | int value => value ≠ 0
  | float value => value ≠ 0
  | string value => value ≠ ""
  | array items => !items.isEmpty
  | object fields => !fields.isEmpty

/-- The number that a value equals, if any: a Boolean is one. -/
def number? : Json → Option ℚ
  | bool value => some (if value then 1 else 0)
  | int value => some value
  | float value => some value
  | _ => none

/-- The value, if it is an instance of `int`. -/
def int? : Json → Option ℤ
  | bool value => some (if value then 1 else 0)
  | int value => some value
  | _ => none

/-- `value in codes`, which hashes the value. -/
def elem (value : Json) (codes : List ℤ) : Except ClientError Bool :=
  match value with
  | array _ | object _ => .error .typeError
  | value => .ok (codes.any fun code => value.number? == some (code : ℚ))

/-- `value.get(key, default)`. -/
def get (value : Json) (key : String) (default : Json) : Except ClientError Json :=
  match value with
  | object fields => .ok ((fields.lookup key).getD default)
  | _ => .error .attributeError

/-- `value[0] if value else None`. -/
def first? : Json → Except ClientError Json
  | array items => .ok (items.headD null)
  | string value => .ok ((value.toList.head?.map fun c => string (String.singleton c)).getD null)
  | object fields => if fields.isEmpty then .ok null else .error .keyError
  | value => if value.truthy then .error .typeError else .ok null

/-- What a loop over the value takes. -/
def items : Json → Except ClientError (List Json)
  | array items => .ok items
  | string value => .ok (value.toList.map fun c => string (String.singleton c))
  | object fields => .ok (fields.map fun field => string field.1)
  | _ => .error .typeError

end Json

/-- The body of a create request. -/
structure OrderBody where
  category : String := "spot"
  symbol : String
  side : String
  orderType : String
  qty : Decimal
  orderLinkId : String
  price : Option Decimal

inductive Request
  | get (path : String) (params : List (String × String)) (signed : Bool)
  | post (path : String) (body : OrderBody)

/-! ### The exchange and the network -/

/-- A refusal of the exchange: a non-zero `retCode`, and its `retMsg`. -/
structure Refusal where
  code : ℤ
  nonzero : code ≠ 0
  message : String

/-- What the exchange decides about a create request whose `orderLinkId` is new, and how it refuses
one that it does not accept. -/
structure Verdict where
  accepts : Bool
  orderId : String
  refusal : Refusal

/-- The orders that the exchange accepted, by `orderLinkId`. -/
structure Exchange where
  orders : Dict String OrderBody := .empty

/-- An order with this client id exists on the exchange. -/
def Exchange.Lists (exchange : Exchange) (clientOrderId : String) : Prop :=
  (exchange.orders.get? clientOrderId).isSome

instance (exchange : Exchange) (clientOrderId : String) : Decidable (exchange.Lists clientOrderId) :=
  inferInstanceAs (Decidable (_ = true))

def Refusal.response (refusal : Refusal) : Response :=
  { statusCode := 200
    body := .ok (.object [("retCode", .int refusal.code), ("retMsg", .string refusal.message),
      ("result", .object [])]) }

def Verdict.acceptance (verdict : Verdict) (body : OrderBody) : Response :=
  { statusCode := 200
    body := .ok (.object [("retCode", .int 0), ("retMsg", .string "OK"),
      ("result", .object [("orderId", .string verdict.orderId),
        ("orderLinkId", .string body.orderLinkId)])]) }

/-- A create request reaches the exchange: each `orderLinkId` is accepted at most once. -/
def Exchange.create (exchange : Exchange) (body : OrderBody) (verdict : Verdict) :
    Exchange × Response :=
  if exchange.Lists body.orderLinkId then (exchange, verdict.refusal.response)
  else if verdict.accepts then
    ({ orders := exchange.orders.set body.orderLinkId body }, verdict.acceptance body)
  else (exchange, verdict.refusal.response)

/-- What becomes of a create request: it is lost, or it reaches the exchange.  What the client gets
`back` is what `httpx` raises or any response; `none` is the exchange's own response. -/
inductive Delivery
  | lost (back : Except RequestError Response)
  | arrived (verdict : Verdict) (back : Option (Except RequestError Response))

/-- The exchange afterwards, and what the client gets back. -/
def Delivery.deliver (delivery : Delivery) (exchange : Exchange) (body : OrderBody) :
    Exchange × Except RequestError Response :=
  match delivery with
  | lost back => (exchange, back)
  | arrived verdict back =>
    ((exchange.create body verdict).1, back.getD (.ok (exchange.create body verdict).2))

/-- What the `n`th request of the client gets if it is a `GET`, and what becomes of its `n`th create
request. -/
structure Network where
  get : ℕ → Except RequestError Response
  create : ℕ → Delivery

/-! ### The client -/

inductive TradingMode
  | paper
  | live
  deriving DecidableEq

/-- The exchange, the client's `_live_key_checked`, and the requests that the client sent. -/
structure Session where
  exchange : Exchange := {}
  liveKeyChecked : Bool := false
  requests : List Request := []

/-- The session once a request is sent. -/
def Session.sent (session : Session) (request : Request) : Session :=
  { session with requests := session.requests ++ [request] }

/-- The create requests that the client sent. -/
def Session.created (session : Session) : List OrderBody :=
  session.requests.filterMap fun
    | .post _ body => some body
    | .get .. => none

/-- A call of the client. -/
abbrev Client (α : Type) := Fallible ClientError Session α

namespace BybitClient

def authErrorCodes : List ℤ := [10003, 10004, 10005, 10007, 10010]

def rateLimitCodes : List ℤ := [10006, 10429]

def maxGetAttempts : ℕ := 3

/-- The path of a create request. -/
def createPath : String := "/v5/order/create"

/-- `response.raise_for_status()`. -/
def raiseForStatus (response : Response) : Except ClientError Unit :=
  if 200 ≤ response.statusCode ∧ response.statusCode ≤ 299 then .ok ()
  else .error (.httpStatusError response.error)

/-- What `_raise_api_error` raises for a code that is not zero. -/
def raiseCode (code message : Json) : Except ClientError Unit := do
  if ← code.elem authErrorCodes then throw (.exchangeAuth message)
  else if ← code.elem rateLimitCodes then throw (.exchangeRateLimit message)
  else throw (.exchangeAPIReject message code.int?)

/-- `_raise_api_error`. -/
def raiseApiError (data : Json) : Except ClientError Unit := do
  let code ← data.get "retCode" .null
  if code.number? = some 0 then return
  else
    let retMsg ← data.get "retMsg" .null
    raiseCode code (if retMsg.truthy then retMsg else .string "Bybit API rejected request")

/-- `self.client.get`. -/
def httpGet (network : Network) (path : String) (params : List (String × String)) (signed : Bool) :
    Client (Except RequestError Response) := do
  let session : Session ← MonadState.get
  set (session.sent (.get path params signed))
  return network.get session.requests.length

/-- `self.client.post`. -/
def httpPost (network : Network) (path : String) (body : OrderBody) :
    Client (Except RequestError Response) := do
  let session : Session ← MonadState.get
  let (exchange, answer) := (network.create session.created.length).deliver session.exchange body
  set { session.sent (.post path body) with exchange := exchange }
  return answer

/-- The `try` block of `_get_raw`, on what the request gets. -/
def getReply : Except RequestError Response → Except ClientError Json
  | .error error => .error (.request error)
  | .ok response =>
    if response.statusCode = 429 then
      .error (.exchangeRateLimit (.string "Bybit HTTP rate limit"))
    else if response.statusCode = 401 ∨ response.statusCode = 403 then
      .error (.exchangeAuth (.string "Bybit authentication failed"))
    else do
      raiseForStatus response
      let data ← response.body.mapError .json
      raiseApiError data
      return data

/-- The `except` clauses of `_get_raw`: an error to raise at once, or a failure to try again after. -/
def getFailure : ClientError → Except ClientError ClientError
  | .exchangeAuth message => .error (.exchangeAuth message)
  | .request (.timeoutException message) => .ok (.exchangeTimeout message)
  | .request (.networkError message) => .ok (.exchangeTimeout message)
  | .exchangeRateLimit message => .ok (.exchangeRateLimit message)
  | .httpStatusError message => .error (.exchangeAPIReject (.string message) none)
  | .json (.jsonDecodeError message) => .error (.exchangeAPIReject (.string message) none)
  | error => .error error

/-- The turns of the loop of `_get_raw` that are left. -/
def getAttempts (network : Network) (path : String) (params : List (String × String))
    (signed : Bool) : ℕ → Client Json
  | 0 => throw (.runtimeError "GET retry loop exited unexpectedly")
  | attempts + 1 => do
    match getReply (← httpGet network path params signed) with
    | .ok data => return data
    | .error error =>
      let failure ← MonadExcept.ofExcept (getFailure error)
      if attempts = 0 then throw failure
      else getAttempts network path params signed attempts

/-- `_get`, with `_get_raw`. -/
def get (network : Network) (path : String) (params : List (String × String)) (signed : Bool) :
    Client Json := do
  let data ← getAttempts network path params signed maxGetAttempts
  MonadExcept.ofExcept (data.get "result" (.object []))

/-- `response.json()` in `_trade_post`, with the `except` clause around it. -/
def tradeData (response : Response) : Except ClientError Json :=
  match response.body with
  | .ok data => .ok data
  | .error (.jsonDecodeError _) =>
    .error (.exchangeTimeout "Bybit returned an indeterminate response")
  | .error error => .error (.json error)

/-- The `try` block of `_trade_post`, on what the request gets. -/
def tradeReply : Except RequestError Response → Except ClientError Json
  | .error error => .error (.request error)
  | .ok response =>
    if response.statusCode = 429 then
      .error (.exchangeRateLimit (.string "Bybit HTTP rate limit"))
    else if response.statusCode = 401 ∨ response.statusCode = 403 then
      .error (.exchangeAuth (.string "Bybit authentication failed"))
    else if response.statusCode = 408 ∨ 500 ≤ response.statusCode then
      .error (.exchangeTimeout s!"Bybit returned an indeterminate HTTP {response.statusCode}")
    else do
      raiseForStatus response
      let data ← tradeData response
      raiseApiError data
      data.get "result" (.object [])

/-- The `except` clauses of `_trade_post`. -/
def tradeFailure : ClientError → ClientError
  | .request (.timeoutException message) => .exchangeTimeout message
  | .request (.networkError message) => .exchangeTimeout message
  | .httpStatusError message => .exchangeAPIReject (.string message) none
  | error => error

/-- `_trade_post`. -/
def tradePost (network : Network) (path : String) (body : OrderBody) : Client Json := do
  let answer ← httpPost network path body
  MonadExcept.ofExcept ((tradeReply answer).mapError tradeFailure)

/-- `any("withdraw" in permission.lower() for permission in wallet_permissions)`. -/
def anyWithdraw : List Json → Except ClientError Bool
  | [] => .ok false
  | .string permission :: rest =>
    if "withdraw".toList <:+: permission.toLower.toList then .ok true else anyWithdraw rest
  | _ :: _ => .error .attributeError

/-- The wallet permissions of `_ensure_live_key_safe`, and whether one of them is to withdraw. -/
def withdraws (keyInfo : Json) : Except ClientError Bool := do
  let permissions ← keyInfo.get "permissions" (.object [])
  let wallet ← permissions.get "Wallet" (.array [])
  anyWithdraw (← wallet.items)

/-- `_ensure_live_key_safe`. -/
def ensureLiveKeySafe (mode : TradingMode) (network : Network) : Client Unit := do
  let session : Session ← MonadState.get
  if mode ≠ .live ∨ session.liveKeyChecked then return
  let keyInfo ← get network "/v5/user/query-api" [] true
  if ← MonadExcept.ofExcept (withdraws keyInfo) then
    throw (.exchangeAuth (.string "Live API key must not have withdrawal permission"))
  else
    let session : Session ← MonadState.get
    set { session with liveKeyChecked := true }

/-- `get_order_by_client_id`: `null` is `None`. -/
def getOrderByClientId (network : Network) (clientOrderId : String) : Client Json := do
  let result ← get network "/v5/order/realtime"
    [("category", "spot"), ("orderLinkId", clientOrderId)] true
  let orders ← MonadExcept.ofExcept (result.get "list" (.array []))
  MonadExcept.ofExcept orders.first?

/-- `c.isspace()`. -/
def isSpace (c : Char) : Bool :=
  (9 ≤ c.toNat && c.toNat ≤ 13) || (28 ≤ c.toNat && c.toNat ≤ 32) ||
    (0x2000 ≤ c.toNat && c.toNat ≤ 0x200a) ||
    [0x85, 0xa0, 0x1680, 0x2028, 0x2029, 0x202f, 0x205f, 0x3000].contains c.toNat

/-- `not client_order_id or not client_order_id.strip()`. -/
def isBlank (clientOrderId : String) : Bool := clientOrderId.toList.all isSpace

/-- The arguments of `place_order`. -/
structure Submission where
  symbol : String
  side : String
  orderType : String
  quantity : Decimal
  clientOrderId : String
  price : Option Decimal := none

def Submission.body (submission : Submission) : OrderBody :=
  { symbol := submission.symbol, side := submission.side, orderType := submission.orderType
    qty := submission.quantity, orderLinkId := submission.clientOrderId, price := submission.price }

/-- What `place_order` does after a timeout. -/
def lookUp (network : Network) (clientOrderId : String) : Client Json := do
  let existing ← tryCatch (getOrderByClientId network clientOrderId)
    fun _ => throw (.unknownOrderState clientOrderId)
  match existing with
  | .null => throw (.unknownOrderState clientOrderId)
  | existing => return existing

/-- The `except` clause of `place_order`. -/
def afterTimeout (network : Network) (clientOrderId : String) : ClientError → Client Json
  | .exchangeTimeout _ => lookUp network clientOrderId
  | error => throw error

/-- `place_order`. -/
def placeOrder (mode : TradingMode) (network : Network) (submission : Submission) : Client Json := do
  if isBlank submission.clientOrderId then
    throw (.valueError "client_order_id is required for every order")
  else
    ensureLiveKeySafe mode network
    tryCatch (tradePost network createPath submission.body)
      (afterTimeout network submission.clientOrderId)

end BybitClient

end CryptoTrading
