import CryptoTrading.Exchange.BybitClient
import CryptoTrading.Kit.Run

/-! What a call of `place_order` reports about its order.  A call sends one create request at most.
When its order is on the exchange at its end, it returns or says that the state is unknown exactly
when the answer to the create request was one that `_trade_post` takes for a success or for a
timeout. -/

namespace CryptoTrading

open Kit Fallible

/-- Only reads lie between the two sessions: they left the exchange alone and created nothing. -/
structure Session.Reads (before after : Session) : Prop where
  exchange : after.exchange = before.exchange
  created : after.created = before.created

theorem Session.Reads.refl (session : Session) : session.Reads session := ⟨rfl, rfl⟩

theorem Session.Reads.trans {first second third : Session} (h : first.Reads second)
    (h' : second.Reads third) : first.Reads third :=
  ⟨h'.exchange.trans h.exchange, h'.created.trans h.created⟩

theorem Session.reads_sent_get (session : Session) (path : String) (params : List (String × String))
    (signed : Bool) : session.Reads (session.sent (.get path params signed)) :=
  ⟨rfl, by simp [Session.created, Session.sent, List.filterMap_append]⟩

section Raises

variable {P : ClientError → Prop}

theorem Json.raises_get (h : P .attributeError) (data : Json) (key : String)
    (default : Json) : Raises P (data.get key default) := by
  cases data with
  | object fields => exact raises_ok
  | _ => exact h

theorem Json.raises_elem (h : P .typeError) (code : Json) (codes : List ℤ) :
    Raises P (code.elem codes) := by
  cases code with
  | array items => exact h
  | object fields => exact h
  | _ => exact raises_ok

theorem Json.raises_items (h : P .typeError) (value : Json) : Raises P value.items := by
  cases value with
  | array items => exact raises_ok
  | string value => exact raises_ok
  | object fields => exact raises_ok
  | _ => exact h

end Raises

/-- The error says nothing about the state of an order. -/
def ClientError.Silent : ClientError → Prop
  | .unknownOrderState _ => False
  | _ => True

/-- The error is none of those that `_trade_post` and `place_order` make something of. -/
def ClientError.Definite : ClientError → Prop
  | .request _ | .exchangeTimeout _ => False
  | error => error.Silent

theorem ClientError.Definite.silent {error : ClientError} (h : error.Definite) : error.Silent := by
  cases error with
  | unknownOrderState id => exact h
  | _ => trivial

namespace BybitClient

variable {mode : TradingMode} {network : Network} {before after : Session}

theorem raises_raiseCode (code message : Json) :
    Raises ClientError.Definite (raiseCode code message) := by
  refine (Json.raises_elem trivial ..).bind fun auth => .ite (fun _ => trivial) fun _ => ?_
  exact (Json.raises_elem trivial ..).bind fun rate => .ite (fun _ => trivial) fun _ => trivial

theorem raises_raiseApiError (data : Json) : Raises ClientError.Definite (raiseApiError data) := by
  refine (Json.raises_get trivial ..).bind fun code => .ite (fun _ => raises_ok) fun _ => ?_
  exact (Json.raises_get trivial ..).bind fun retMsg => raises_raiseCode ..

theorem raiseCode_ne_ok (code message : Json) : raiseCode code message ≠ .ok () := by
  cases hauth : code.elem authErrorCodes with
  | error error => simp [raiseCode, hauth, bind, Except.bind]
  | ok auth =>
    cases hrate : code.elem rateLimitCodes with
    | error error => cases auth <;> simp [raiseCode, hauth, hrate, bind, Except.bind]
    | ok rate => cases auth <;> cases rate <;> simp [raiseCode, hauth, hrate, bind, Except.bind]

/-- A reply is a success where it is an object and its code equals zero. -/
theorem raiseApiError_ok_iff {data : Json} : raiseApiError data = .ok () ↔
    ∃ fields, data = .object fields ∧ ((fields.lookup "retCode").getD .null).number? = some 0 := by
  cases data with
  | object fields =>
    by_cases hzero : ((fields.lookup "retCode").getD .null).number? = some 0
    · simp [raiseApiError, Json.get, bind, Except.bind, pure, Except.pure, hzero]
    · have hraises : raiseApiError (.object fields) ≠ .ok () := by
        simp only [raiseApiError, Json.get, bind, Except.bind, hzero, if_false]
        exact raiseCode_ne_ok _ _
      simp [hraises, hzero]
  | _ => simp [raiseApiError, Json.get, bind, Except.bind]

theorem raises_raiseForStatus (response : Response) :
    Raises ClientError.Definite (raiseForStatus response) :=
  .ite (fun _ => raises_ok) fun _ => trivial

theorem raises_getReply (answer : Except RequestError Response) :
    Raises ClientError.Silent (getReply answer) := by
  cases answer with
  | error error => trivial
  | ok response =>
    refine .ite (fun _ => trivial) fun _ => .ite (fun _ => trivial) fun _ => ?_
    refine ((raises_raiseForStatus response).imp fun _ => ClientError.Definite.silent).bind fun _ =>
      .bind ?_ fun data => ?_
    · cases hbody : response.body <;> trivial
    · exact ((raises_raiseApiError data).imp fun _ => ClientError.Definite.silent).bind fun _ => raises_ok

/-! ### Reads -/

theorem ends_httpGet (path : String) (params : List (String × String)) (signed : Bool) :
    Ends (httpGet network path params signed) before
      (.ok (network.get before.requests.length)) (before.sent (.get path params signed)) := by
  rw [httpGet, ends_bind_of_returns (ends_get_iff.mpr ⟨rfl, rfl⟩),
    ends_bind_of_returns (ends_set_iff.mpr ⟨rfl, rfl⟩)]
  exact ends_pure_iff.mpr ⟨rfl, rfl⟩

/-- What the turns of `getAttempts` make of the answers to the requests from the `n`th on. -/
def attemptAnswers (answers : ℕ → Except RequestError Response) (n : ℕ) :
    ℕ → Except ClientError Json
  | 0 => .error (.runtimeError "GET retry loop exited unexpectedly")
  | attempts + 1 =>
    match getReply (answers n) with
    | .ok data => .ok data
    | .error error => do
      let failure ← getFailure error
      if attempts = 0 then .error failure else attemptAnswers answers (n + 1) attempts

theorem ends_getAttempts {path : String} {params : List (String × String)} {signed : Bool}
    {attempts : ℕ} {result : Except ClientError Json}
    (h : Ends (getAttempts network path params signed attempts) before result after) :
    result = attemptAnswers network.get before.requests.length attempts ∧ before.Reads after := by
  induction attempts generalizing before with
  | zero =>
    obtain ⟨rfl, rfl⟩ := ends_throw_iff.mp h
    exact ⟨rfl, .refl _⟩
  | succ attempts ih =>
    have hsent := before.reads_sent_get path params signed
    rw [getAttempts, ends_bind_of_returns (ends_httpGet path params signed)] at h
    rw [attemptAnswers]
    cases hreply : getReply (network.get before.requests.length) with
    | ok data =>
      simp only [hreply, ends_pure_iff] at h
      obtain ⟨rfl, rfl⟩ := h
      exact ⟨rfl, hsent⟩
    | error error =>
      simp only [hreply] at h
      cases hfailure : getFailure error with
      | error error =>
        rw [hfailure, ends_bind_of_raises (ends_ofExcept_iff.mpr ⟨rfl, rfl⟩)] at h
        obtain ⟨rfl, rfl⟩ := h
        exact ⟨by simp [hfailure, bind, Except.bind], hsent⟩
      | ok failure =>
        rw [hfailure, ends_bind_of_returns (ends_ofExcept_iff.mpr ⟨rfl, rfl⟩)] at h
        simp only [hfailure, bind, Except.bind]
        split at h
        · next hlast =>
          obtain ⟨rfl, rfl⟩ := ends_throw_iff.mp h
          rw [if_pos hlast]
          exact ⟨rfl, hsent⟩
        · next hmore =>
          obtain ⟨rfl, hreads⟩ := ih h
          rw [if_neg hmore]
          exact ⟨by simp [Session.sent], hsent.trans hreads⟩

/-- What `get` makes of the answers to the requests from the `n`th on. -/
def getAnswer (network : Network) (n : ℕ) : Except ClientError Json := do
  let data ← attemptAnswers network.get n maxGetAttempts
  data.get "result" (.object [])

theorem ends_get {path : String} {params : List (String × String)} {signed : Bool}
    {result : Except ClientError Json} (h : Ends (get network path params signed) before result after) :
    result = getAnswer network before.requests.length ∧ before.Reads after := by
  rw [get, ends_bind_iff] at h
  rcases h with ⟨error, hraised, rfl⟩ | ⟨data, middle, hreturned, h⟩
  · obtain ⟨hanswer, hreads⟩ := ends_getAttempts hraised
    exact ⟨by rw [getAnswer, ← hanswer]; rfl, hreads⟩
  · obtain ⟨hanswer, hreads⟩ := ends_getAttempts hreturned
    obtain ⟨rfl, rfl⟩ := ends_ofExcept_iff.mp h
    exact ⟨by rw [getAnswer, ← hanswer]; rfl, hreads⟩

/-- What `ensureLiveKeySafe` makes of the answers to the requests from the `n`th on, where it asks. -/
def keyAnswer (network : Network) (n : ℕ) : Except ClientError Unit := do
  let keyInfo ← getAnswer network n
  if ← withdraws keyInfo then
    .error (.exchangeAuth (.string "Live API key must not have withdrawal permission"))
  else .ok ()

/-- What `ensureLiveKeySafe` raises or returns. -/
def keyCheck (mode : TradingMode) (network : Network) (session : Session) : Except ClientError Unit :=
  if mode ≠ .live ∨ session.liveKeyChecked then .ok () else keyAnswer network session.requests.length

theorem ends_ensureLiveKeySafe {result : Except ClientError Unit}
    (h : Ends (ensureLiveKeySafe mode network) before result after) :
    result = keyCheck mode network before ∧ before.Reads after := by
  rw [ensureLiveKeySafe, ends_bind_of_returns (ends_get_iff.mpr ⟨rfl, rfl⟩)] at h
  rw [keyCheck]
  split at h
  · next hpassed =>
    obtain ⟨rfl, rfl⟩ := ends_pure_iff.mp h
    exact ⟨(if_pos hpassed).symm, .refl _⟩
  · next hasks =>
    rw [if_neg hasks, keyAnswer]
    rw [ends_bind_iff] at h
    rcases h with ⟨error, hraised, rfl⟩ | ⟨keyInfo, middle, hreturned, h⟩
    · obtain ⟨hanswer, hreads⟩ := ends_get hraised
      exact ⟨by rw [← hanswer]; rfl, hreads⟩
    · obtain ⟨hanswer, hreads⟩ := ends_get hreturned
      rw [← hanswer]
      cases hwithdraws : withdraws keyInfo with
      | error error =>
        rw [hwithdraws, ends_bind_of_raises (ends_ofExcept_iff.mpr ⟨rfl, rfl⟩)] at h
        obtain ⟨rfl, rfl⟩ := h
        exact ⟨by simp [hwithdraws, bind, Except.bind], hreads⟩
      | ok may =>
        rw [hwithdraws, ends_bind_of_returns (ends_ofExcept_iff.mpr ⟨rfl, rfl⟩)] at h
        simp only [bind, Except.bind, hwithdraws]
        split at h
        · next hmay =>
          obtain ⟨rfl, rfl⟩ := ends_throw_iff.mp h
          exact ⟨(if_pos hmay).symm, hreads⟩
        · next hmay =>
          rw [ends_bind_of_returns (ends_get_iff.mpr ⟨rfl, rfl⟩)] at h
          obtain ⟨rfl, rfl⟩ := ends_set_iff.mp h
          exact ⟨(if_neg hmay).symm, hreads.exchange, hreads.created⟩

/-! ### The create request -/

/-- The body is a reply that `_raise_api_error` accepts, or is not JSON. -/
def SettledBody : Except JsonError Json → Prop
  | .ok data =>
    ∃ fields, data = .object fields ∧ ((fields.lookup "retCode").getD .null).number? = some 0
  | .error (.jsonDecodeError _) => True
  | .error _ => False

/-- The answer to a create request is one that `_trade_post` takes for a success or for a timeout. -/
def Settled : Except RequestError Response → Prop
  | .error (.timeoutException _) | .error (.networkError _) => True
  | .error _ => False
  | .ok response =>
    (response.statusCode = 408 ∨ 500 ≤ response.statusCode) ∨
      (200 ≤ response.statusCode ∧ response.statusCode ≤ 299) ∧ SettledBody response.body

/-- What `_trade_post` raises or returns for an answer. -/
def tradeResult (answer : Except RequestError Response) : Except ClientError Json :=
  (tradeReply answer).mapError tradeFailure

/-- The result is one that `place_order` returns, or looks the order up for. -/
def Reported : Except ClientError Json → Prop
  | .ok _ | .error (.exchangeTimeout _) => True
  | .error _ => False

theorem not_reported {error : ClientError} (h : error.Definite) :
    ¬Reported (.error (tradeFailure error)) := by
  cases error with
  | request error => exact h.elim
  | exchangeTimeout message => exact h.elim
  | _ => exact id

/-- What `tradeReply` makes of a response past its checks of the status. -/
def tradeBody (response : Response) : Except ClientError Json := do
  let data ← tradeData response
  raiseApiError data
  data.get "result" (.object [])

theorem reported_tradeBody_iff (response : Response) :
    Reported ((tradeBody response).mapError tradeFailure) ↔ SettledBody response.body := by
  rw [tradeBody, tradeData]
  cases response.body with
  | error error =>
    cases error <;> simp [bind, Except.bind, Except.mapError, tradeFailure, Reported, SettledBody]
  | ok data =>
    rw [SettledBody, ← raiseApiError_ok_iff]
    cases hapi : raiseApiError data with
    | error error =>
      have hdefinite : error.Definite := by
        have hraises := raises_raiseApiError data
        rwa [hapi] at hraises
      simp [bind, Except.bind, hapi, Except.mapError, not_reported hdefinite]
    | ok _ =>
      obtain ⟨fields, rfl, -⟩ := raiseApiError_ok_iff.mp hapi
      simp [bind, Except.bind, hapi, Json.get, Except.mapError, Reported]

/-- `_trade_post` returns or times out exactly where the answer is settled. -/
theorem reported_tradeResult_iff (answer : Except RequestError Response) :
    Reported (tradeResult answer) ↔ Settled answer := by
  cases answer with
  | error error =>
    cases error <;> simp [tradeResult, tradeReply, Except.mapError, tradeFailure, Reported, Settled]
  | ok response =>
    rw [tradeResult, tradeReply, Settled]
    by_cases h429 : response.statusCode = 429
    · simp [h429, Except.mapError, tradeFailure, Reported]
    · rw [if_neg h429]
      by_cases hauth : response.statusCode = 401 ∨ response.statusCode = 403
      · rw [if_pos hauth]
        rcases hauth with hauth | hauth <;> simp [hauth, Except.mapError, tradeFailure, Reported]
      · rw [if_neg hauth]
        by_cases hunclear : response.statusCode = 408 ∨ 500 ≤ response.statusCode
        · simp [hunclear, Except.mapError, tradeFailure, Reported]
        · rw [if_neg hunclear, or_iff_right hunclear, raiseForStatus]
          by_cases hsuccess : 200 ≤ response.statusCode ∧ response.statusCode ≤ 299
          · rw [if_pos hsuccess, and_iff_right hsuccess]
            exact reported_tradeBody_iff response
          · simp [hsuccess, bind, Except.bind, Except.mapError, tradeFailure, Reported]

theorem silent_tradeFailure {error : ClientError} (h : error.Silent) :
    (tradeFailure error).Silent := by
  cases error with
  | unknownOrderState id => exact h
  | request error => cases error <;> trivial
  | _ => trivial

theorem raises_tradeResult (answer : Except RequestError Response) :
    Raises ClientError.Silent (tradeResult answer) := by
  refine Raises.mapError (Raises.imp (P := ClientError.Silent) ?_ fun _ => silent_tradeFailure)
  cases answer with
  | error error => trivial
  | ok response =>
    refine .ite (fun _ => trivial) fun _ => .ite (fun _ => trivial) fun _ =>
      .ite (fun _ => trivial) fun _ => ?_
    refine ((raises_raiseForStatus response).imp fun _ => ClientError.Definite.silent).bind fun _ =>
      .bind ?_ fun data => ?_
    · rw [tradeData]
      cases response.body with
      | error error => cases error <;> trivial
      | ok data => trivial
    · exact ((raises_raiseApiError data).imp fun _ => ClientError.Definite.silent).bind fun _ =>
        Json.raises_get trivial ..

/-- The session once the create request is delivered. -/
def delivered (network : Network) (session : Session) (path : String) (body : OrderBody) : Session :=
  { session.sent (.post path body) with
    exchange := ((network.create session.created.length).deliver session.exchange body).1 }

/-- The answer to the create request. -/
def answered (network : Network) (session : Session) (body : OrderBody) :
    Except RequestError Response :=
  ((network.create session.created.length).deliver session.exchange body).2

theorem created_delivered (network : Network) (session : Session) (path : String) (body : OrderBody) :
    (delivered network session path body).created = session.created ++ [body] := by
  simp [delivered, Session.created, Session.sent, List.filterMap_append]

theorem ends_tradePost (path : String) (body : OrderBody) :
    Ends (tradePost network path body) before (tradeResult (answered network before body))
      (delivered network before path body) := by
  have hpost : Ends (httpPost network path body) before (.ok (answered network before body))
      (delivered network before path body) := by
    rw [httpPost, ends_bind_of_returns (ends_get_iff.mpr ⟨rfl, rfl⟩),
      ends_bind_of_returns (ends_set_iff.mpr ⟨rfl, rfl⟩)]
    exact ends_pure_iff.mpr ⟨rfl, rfl⟩
  rw [tradePost, ends_bind_of_returns hpost]
  exact ends_ofExcept_iff.mpr ⟨rfl, rfl⟩

/-! ### The call -/

/-- The call returns normally, or says that the state of the order is unknown. -/
def Accounts (clientOrderId : String) (result : Except ClientError Json) : Prop :=
  (∃ order, result = .ok order) ∨ result = .error (.unknownOrderState clientOrderId)

theorem ends_getOrderByClientId {clientOrderId : String} {result : Except ClientError Json}
    (h : Ends (getOrderByClientId network clientOrderId) before result after) :
    before.Reads after := by
  rw [getOrderByClientId, ends_bind_iff] at h
  rcases h with ⟨error, hraised, -⟩ | ⟨data, middle, hreturned, h⟩
  · exact (ends_get hraised).2
  · have hreads := (ends_get hreturned).2
    rcases ends_bind_iff.mp h with ⟨error, hraised, -⟩ | ⟨orders, later, hlist, h⟩
    · rwa [(ends_ofExcept_iff.mp hraised).2]
    · rwa [(ends_ofExcept_iff.mp h).2, (ends_ofExcept_iff.mp hlist).2]

theorem ends_lookUp {clientOrderId : String} {result : Except ClientError Json}
    (h : Ends (lookUp network clientOrderId) before result after) :
    before.Reads after ∧ Accounts clientOrderId result := by
  rw [lookUp, ends_bind_iff] at h
  rcases h with ⟨error, hraised, rfl⟩ | ⟨existing, middle, hreturned, h⟩
  · rcases ends_tryCatch_iff.mp hraised with ⟨_, -, ⟨⟩⟩ | ⟨other, middle, hfailed, hthrown⟩
    obtain ⟨⟨⟩, rfl⟩ := ends_throw_iff.mp hthrown
    exact ⟨ends_getOrderByClientId hfailed, .inr rfl⟩
  · have hreads : before.Reads middle := by
      rcases ends_tryCatch_iff.mp hreturned with ⟨_, hfound, -⟩ | ⟨other, _, -, hthrown⟩
      · exact ends_getOrderByClientId hfound
      · cases (ends_throw_iff.mp hthrown).1
    cases existing with
    | null =>
      obtain ⟨rfl, rfl⟩ := ends_throw_iff.mp h
      exact ⟨hreads, .inr rfl⟩
    | _ =>
      obtain ⟨rfl, rfl⟩ := ends_pure_iff.mp h
      exact ⟨hreads, .inl ⟨_, rfl⟩⟩

theorem silent_getFailure {error : ClientError} (h : error.Silent) :
    Raises ClientError.Silent (getFailure error) ∧
      ∀ failure, getFailure error = .ok failure → failure.Silent := by
  cases error with
  | unknownOrderState id => exact h.elim
  | request error => cases error <;> simp [getFailure, ClientError.Silent]
  | json error => cases error <;> simp [getFailure, ClientError.Silent]
  | _ => simp [getFailure, ClientError.Silent]

theorem raises_attemptAnswers (answers : ℕ → Except RequestError Response) (n attempts : ℕ) :
    Raises ClientError.Silent (attemptAnswers answers n attempts) := by
  induction attempts generalizing n with
  | zero => trivial
  | succ attempts ih =>
    have hreply := raises_getReply (answers n)
    rw [attemptAnswers]
    cases hanswer : getReply (answers n) with
    | ok data => trivial
    | error error =>
      rw [hanswer] at hreply
      obtain ⟨hraises, hfails⟩ := silent_getFailure hreply
      cases hfailure : getFailure error with
      | error other =>
        rw [hfailure] at hraises
        simpa [hfailure, bind, Except.bind] using hraises
      | ok failure =>
        simp only [hfailure, bind, Except.bind]
        exact .ite (fun _ => raises_error_iff.mpr (hfails failure hfailure)) fun _ => ih (n + 1)

theorem raises_getAnswer (network : Network) (n : ℕ) :
    Raises ClientError.Silent (getAnswer network n) :=
  (raises_attemptAnswers ..).bind fun _ => Json.raises_get trivial ..

theorem raises_anyWithdraw (permissions : List Json) :
    Raises ClientError.Silent (anyWithdraw permissions) := by
  induction permissions with
  | nil => trivial
  | cons permission rest ih =>
    cases permission with
    | string text => exact .ite (fun _ => raises_ok) fun _ => ih
    | _ => trivial

theorem raises_withdraws (keyInfo : Json) : Raises ClientError.Silent (withdraws keyInfo) :=
  (Json.raises_get trivial ..).bind fun _ => (Json.raises_get trivial ..).bind fun _ =>
    (Json.raises_items trivial _).bind raises_anyWithdraw

theorem raises_keyCheck (mode : TradingMode) (network : Network) (session : Session) :
    Raises ClientError.Silent (keyCheck mode network session) := by
  refine .ite (fun _ => raises_ok) fun _ => (raises_getAnswer ..).bind fun keyInfo => ?_
  exact (raises_withdraws keyInfo).bind fun may => .ite (fun _ => trivial) fun _ => raises_ok

theorem not_accounts {clientOrderId : String} {error : ClientError} (h : error.Silent) :
    ¬Accounts clientOrderId (.error error) := by
  rintro (⟨order, hreturned⟩ | hunknown)
  · cases hreturned
  · rw [Except.error.inj hunknown] at h
    exact h

/-- What follows the checks of `place_order`. -/
theorem ends_create {submission : Submission} {result : Except ClientError Json}
    (h : Ends (tryCatch (tradePost network createPath submission.body)
      (afterTimeout network submission.clientOrderId)) before result after) :
    (delivered network before createPath submission.body).Reads after ∧
      (Accounts submission.clientOrderId result ↔
        Settled (answered network before submission.body)) := by
  have hpost : Ends (tradePost network createPath submission.body) before
      (tradeResult (answered network before submission.body))
      (delivered network before createPath submission.body) := ends_tradePost _ _
  rw [← reported_tradeResult_iff]
  cases hresult : tradeResult (answered network before submission.body) with
  | ok order =>
    rw [hresult] at hpost
    obtain ⟨rfl, rfl⟩ := (ends_tryCatch_of_returns hpost).mp h
    exact ⟨.refl _, iff_of_true (.inl ⟨order, rfl⟩) trivial⟩
  | error error =>
    rw [hresult] at hpost
    have hhandled := (ends_tryCatch_of_raises hpost).mp h
    have hsilent := raises_tradeResult (answered network before submission.body)
    rw [hresult] at hsilent
    cases error with
    | exchangeTimeout message =>
      obtain ⟨hreads, haccounts⟩ := ends_lookUp hhandled
      exact ⟨hreads, iff_of_true haccounts trivial⟩
    | _ =>
      obtain ⟨rfl, rfl⟩ := ends_throw_iff.mp hhandled
      exact ⟨.refl _, iff_of_false (not_accounts hsilent) id⟩

/-- The call gets to its create request. -/
def Submits (mode : TradingMode) (network : Network) (session : Session) (submission : Submission) :
    Prop :=
  isBlank submission.clientOrderId = false ∧ keyCheck mode network session = .ok ()

/-- How a call ends: before its create request, or past it. -/
inductive Ending (mode : TradingMode) (network : Network) (submission : Submission)
    (before : Session) (result : Except ClientError Json) (after : Session) : Prop
  | stopped (hstopped : ¬Submits mode network before submission) (hreads : before.Reads after)
      (hresult : ¬Accounts submission.clientOrderId result)
  | sent (hsent : Submits mode network before submission)
      (hexchange : after.exchange =
        (delivered network before createPath submission.body).exchange)
      (hcreated : after.created = before.created ++ [submission.body])
      (hresult : Accounts submission.clientOrderId result ↔
        Settled (answered network before submission.body))

theorem ends_placeOrder {submission : Submission} {result : Except ClientError Json}
    (h : Ends (placeOrder mode network submission) before result after) :
    Ending mode network submission before result after := by
  rw [placeOrder] at h
  split at h
  · next hblank =>
    obtain ⟨rfl, rfl⟩ := ends_throw_iff.mp h
    exact .stopped (fun hsubmits => by simp [hsubmits.1] at hblank) (.refl _) (not_accounts trivial)
  · next hblank =>
    rcases ends_bind_iff.mp h with ⟨error, hraised, rfl⟩ | ⟨_, middle, hpassed, h⟩
    · obtain ⟨hcheck, hreads⟩ := ends_ensureLiveKeySafe hraised
      have hsilent := raises_keyCheck mode network before
      rw [← hcheck] at hsilent
      exact .stopped (fun hsubmits => by simp [hsubmits.2] at hcheck) hreads (not_accounts hsilent)
    · obtain ⟨hcheck, hreads⟩ := ends_ensureLiveKeySafe hpassed
      have hsent : Submits mode network before submission := ⟨by simpa using hblank, hcheck.symm⟩
      have hanswer : answered network middle submission.body =
          answered network before submission.body := by
        rw [answered, answered, hreads.exchange, hreads.created]
      have hexchange : (delivered network middle createPath submission.body).exchange =
          (delivered network before createPath submission.body).exchange := by
        rw [delivered, delivered, hreads.exchange, hreads.created]
      obtain ⟨hlast, hresult⟩ := ends_create h
      refine .sent hsent (hlast.exchange.trans hexchange) ?_ (by rw [hresult, hanswer])
      rw [hlast.created, created_delivered, hreads.created]

theorem lists_create_iff (exchange : Exchange) (body : OrderBody) (verdict : Verdict) :
    (exchange.create body verdict).1.Lists body.orderLinkId ↔
      exchange.Lists body.orderLinkId ∨ verdict.accepts = true := by
  rw [Exchange.create]
  split
  · next hlisted => exact iff_of_true hlisted (.inl hlisted)
  · next hnew =>
    rw [or_iff_right hnew]
    split
    · next haccepts =>
      refine iff_of_true ?_ haccepts
      simp [Exchange.Lists]
    · next hrefused => exact iff_of_false hnew hrefused

/-- The request reaches the exchange, which accepts it if its `orderLinkId` is new. -/
def Accepted : Delivery → Prop
  | .lost _ => False
  | .arrived verdict _ => verdict.accepts = true

theorem lists_delivered_iff (path : String) (body : OrderBody) :
    (delivered network before path body).exchange.Lists body.orderLinkId ↔
      before.exchange.Lists body.orderLinkId ∨ Accepted (network.create before.created.length) := by
  rw [delivered]
  cases network.create before.created.length with
  | lost back => exact (or_iff_left id).symm
  | arrived verdict back => exact lists_create_iff before.exchange body verdict

/-- An order with the client id of the call is on the exchange before the call, or its create request
is accepted. -/
def Listed (mode : TradingMode) (network : Network) (before : Session) (submission : Submission) :
    Prop :=
  before.exchange.Lists submission.clientOrderId ∨
    Submits mode network before submission ∧ Accepted (network.create before.created.length)

/-- Where there is an order to report, the call gets to its create request, and the answer to it is a
success or is taken for a timeout. -/
def AccountedFor (mode : TradingMode) (network : Network) (before : Session)
    (submission : Submission) : Prop :=
  Listed mode network before submission →
    Submits mode network before submission ∧ Settled (answered network before submission.body)

/-- A call that leaves an order with its client id on the exchange accounts for it exactly when it is
accounted for. -/
theorem Ending.accounts_iff {submission : Submission} {result : Except ClientError Json}
    (h : Ending mode network submission before result after) :
    (after.exchange.Lists submission.clientOrderId → Accounts submission.clientOrderId result) ↔
      AccountedFor mode network before submission := by
  cases h with
  | stopped hstopped hreads hresult =>
    rw [hreads.exchange]
    exact imp_congr (or_iff_left fun h => hstopped h.1).symm
      (iff_of_false hresult fun h => hstopped h.1)
  | sent hsent hexchange hcreated hresult =>
    rw [hexchange, hresult, AccountedFor, Listed, and_iff_right hsent, and_iff_right hsent]
    exact imp_congr_left (lists_delivered_iff createPath submission.body)

end BybitClient

/-! ### Runs -/

/-- A call of `place_order` and its result, or an order that reaches the exchange between the calls:
a request of an earlier call that was late, or one of another client. -/
inductive SubmissionEvent
  | placed (submission : BybitClient.Submission) (result : Except ClientError Json)
  | arrived (body : OrderBody)

/-- The calls come one after the other, in any session and on any network. -/
inductive SubmissionStep (mode : TradingMode) (network : Network) :
    Session → SubmissionEvent → Session → Prop
  | placed {before after : Session} {submission : BybitClient.Submission}
      {result : Except ClientError Json}
      (h : Ends (BybitClient.placeOrder mode network submission) before result after) :
      SubmissionStep mode network before (.placed submission result) after
  | arrived {before : Session} {body : OrderBody} (h : ¬before.exchange.Lists body.orderLinkId) :
      SubmissionStep mode network before (.arrived body)
        { before with exchange := { orders := before.exchange.orders.set body.orderLinkId body } }

/-- In every run, each call sends one create request at most.  Each call that leaves an order with
its client id on the exchange returns, or says that the state of the order is unknown, exactly when
each call is accounted for. -/
theorem submissions_accounted_iff (mode : TradingMode) (network : Network) (start : Session)
    (events : List SubmissionEvent) :
    (∀ before submission result after,
      Run.Makes (SubmissionStep mode network) start events before (.placed submission result) after →
        after.created = before.created ∨ after.created = before.created ++ [submission.body]) ∧
    ((∀ before submission result after,
      Run.Makes (SubmissionStep mode network) start events before (.placed submission result) after →
        after.exchange.Lists submission.clientOrderId →
          BybitClient.Accounts submission.clientOrderId result) ↔
      ∀ before submission result after,
        Run.Makes (SubmissionStep mode network) start events before (.placed submission result)
          after → BybitClient.AccountedFor mode network before submission) := by
  have hends : ∀ before submission result after,
      Run.Makes (SubmissionStep mode network) start events before (.placed submission result) after →
        BybitClient.Ending mode network submission before result after := by
    rintro before submission result after ⟨-, -, -, -, hstep⟩
    cases hstep with
    | placed h => exact BybitClient.ends_placeOrder h
  constructor
  · intro before submission result after hmakes
    cases hends _ _ _ _ hmakes with
    | stopped hstopped hreads hresult => exact .inl hreads.created
    | sent hsent hexchange hcreated hresult => exact .inr hcreated
  · refine forall_congr' fun before => forall_congr' fun submission => forall_congr' fun result =>
      forall_congr' fun after => ?_
    exact imp_congr_right fun hmakes => (hends _ _ _ _ hmakes).accounts_iff

/-- The exchange accepts each order, and the connection is dropped before its response. -/
def droppedResponse : Network :=
  { get := fun _ => .error (.timeoutException "")
    create := fun _ => .arrived
      { accepts := true, orderId := "1"
        refusal := { code := 170141, nonzero := by decide, message := "Duplicate clientOrderId." } }
      (some (.error (.protocolError "Server disconnected without sending a response."))) }

def marketBuy : BybitClient.Submission :=
  { symbol := "BTCUSDT", side := "Buy", orderType := "Market", quantity := 1, clientOrderId := "a" }

/-- The order is on the exchange, and the call raises `httpx.RemoteProtocolError`. -/
theorem order_lost : ∃ result after,
    Run.Makes (SubmissionStep .paper droppedResponse) {} [.placed marketBuy result] {}
      (.placed marketBuy result) after ∧
    after.exchange.Lists marketBuy.clientOrderId ∧
    ¬BybitClient.Accounts marketBuy.clientOrderId result := by
  refine ⟨.error (.request (.protocolError "Server disconnected without sending a response.")),
    BybitClient.delivered droppedResponse {} BybitClient.createPath marketBuy.body,
    ⟨[], [], rfl, .nil _, .placed rfl⟩, ?_, ?_⟩
  · exact (BybitClient.lists_delivered_iff _ marketBuy.body).mpr (.inr rfl)
  · exact BybitClient.not_accounts trivial

end CryptoTrading
