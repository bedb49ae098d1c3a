import CryptoTrading.Backtest.EngineEvents
import Mathlib.Data.List.Perm.Subperm

/-! The audit trail of a backtest: when its orders, risk decisions, fills and trades correspond one to
one. -/

namespace CryptoTrading

open Kit

/-! ### Identities -/

theorem ofDigitChars_paddedDigits (n : ℕ) : Nat.ofDigitChars 10 (paddedDigits n) 0 = n := by
  rw [paddedDigits, Nat.ofDigitChars_append, Nat.ofDigitChars_replicate_zero, Nat.mul_zero,
    Nat.ofDigitChars_toDigits (by decide) (by decide)]

theorem backtestId_injective (kind : String) : Function.Injective (backtestId kind) := by
  intro n m h
  have hdigits : paddedDigits n = paddedDigits m := by
    simpa [backtestId, ← String.toList_inj] using h
  rw [← ofDigitChars_paddedDigits n, hdigits, ofDigitChars_paddedDigits]

theorem backtestId_order_ne_fill (n m : ℕ) : backtestId "order" n ≠ backtestId "fill" m := by
  intro h
  simp [backtestId, ← String.toList_inj] at h

theorem backtestId_ne_empty (kind : String) (n : ℕ) : backtestId kind n ≠ "" := by
  intro h
  simp [backtestId, ← String.toList_inj] at h

/-! ### The trail -/

/-- A fill is the trade that an entry of the history records. -/
def Fill.Matches (fill : Fill) : TradeEntry → Prop
  | .opened symbol _ price quantity _ commission => fill.side = .buy ∧ fill.symbol = symbol ∧
      fill.price = price ∧ fill.quantity = quantity ∧ fill.commission = commission
  | .closed symbol _ _ exitPrice quantity _ commission _ _ => fill.side = .sell ∧
      fill.symbol = symbol ∧ fill.price = exitPrice ∧ fill.quantity = quantity ∧
      fill.commission = commission

/-- The decision is on an order: its code is not "NO_POSITION". -/
def RiskDecision.hasOrder (decision : RiskDecision) : Bool :=
  decide (decision.codes ≠ ["NO_POSITION"])

/-- The identities are distinct, orders and decisions belong together one to one, the approved orders
have one fill each and the others none, and the fills are the trades of the history in its order. -/
structure AuditTrail (result : BacktestResult) : Prop where
  ids : (result.orders.map Order.orderId ++ result.fills.map Fill.fillId).Nodup
  decided : ∀ order ∈ result.orders,
    (result.riskDecisions.map RiskDecision.orderId).count order.orderId = 1
  named : ∀ decision ∈ result.riskDecisions, decision.hasOrder = true →
    (result.orders.map Order.orderId).count decision.orderId = 1
  filled : ∀ order ∈ result.orders, ∀ decision ∈ result.riskDecisions,
    decision.orderId = order.orderId → (result.fills.map Fill.orderId).count order.orderId =
      if decision.approved then 1 else 0
  trades : List.Forall₂ Fill.Matches result.fills result.portfolio.tradeHistory

namespace BacktestEngine

/-- The identities of the decisions that have an order, and of those that approve theirs. -/
def decisionIds (engine : BacktestEngine) : List String :=
  (engine.riskDecisions.filter RiskDecision.hasOrder).map RiskDecision.orderId

def approvedIds (engine : BacktestEngine) : List String :=
  (engine.riskDecisions.filter RiskDecision.approved).map RiskDecision.orderId

/-- What the logs of every run keep. -/
structure Logged (engine : BacktestEngine) : Prop where
  numbered : ∃ orders fills : List ℕ,
    engine.orders.map Order.orderId = orders.map (backtestId "order") ∧
      engine.fills.map Fill.fillId = fills.map (backtestId "fill") ∧ orders.Nodup ∧ fills.Nodup ∧
      ∀ n ∈ orders ++ fills, n ≤ engine.sequence
  decisions : engine.decisionIds = engine.orders.map Order.orderId
  unnamed : ∀ decision ∈ engine.riskDecisions, decision.hasOrder = false →
    decision.orderId = "" ∧ decision.approved = false
  fills : (engine.fills.map Fill.orderId).Sublist engine.approvedIds
  trades : engine.fills.length = engine.portfolio.tradeHistory.length

/-- Every approved order is filled, by the trade that the history records. -/
structure Complete (engine : BacktestEngine) : Prop where
  fills : engine.fills.map Fill.orderId = engine.approvedIds
  trades : List.Forall₂ Fill.Matches engine.fills engine.portfolio.tradeHistory

section Order

variable {engine assessed : BacktestEngine} {clock : ℕ → Datetime} {order : Order} {quote : Quote}
  {call : OrderCall}

theorem riskDecision_hasOrder (order : Order) (quote : Quote) :
    (riskDecision order quote).hasOrder = true := by
  have hvalue : ∀ event : RiskEvent, event.value ≠ "NO_POSITION" := by
    intro event
    cases event <;> decide
  refine decide_eq_true fun h => ?_
  simp only [riskDecision] at h
  cases hevents : quote.result.events with
  | nil => simp [hevents] at h
  | cons first rest =>
    rw [hevents, List.map_cons] at h
    exact hvalue first (List.cons.inj h).1

theorem noPositionDecision_hasOrder (call : OrderCall) :
    (noPositionDecision call).hasOrder = false := by
  simp [noPositionDecision, RiskDecision.hasOrder]

theorem decisionIds_decided (decision : RiskDecision) : (engine.decided decision).decisionIds =
    engine.decisionIds ++ if decision.hasOrder then [decision.orderId] else [] := by
  cases h : decision.hasOrder <;> simp [decisionIds, decided, h]

theorem approvedIds_decided (decision : RiskDecision) : (engine.decided decision).approvedIds =
    engine.approvedIds ++ if decision.approved then [decision.orderId] else [] := by
  cases h : decision.approved <;> simp [approvedIds, decided, h]

theorem Logged.same {after : BacktestEngine} (h : engine.Logged) (hsame : engine.SameLogs after) :
    after.Logged := by
  refine ⟨?_, ?_, ?_, ?_, ?_⟩
  · rw [hsame.orders, hsame.fills, hsame.sequence]
    exact h.numbered
  · rw [decisionIds, hsame.riskDecisions, hsame.orders]
    exact h.decisions
  · rw [hsame.riskDecisions]
    exact h.unnamed
  · rw [approvedIds, hsame.riskDecisions, hsame.fills]
    exact h.fills
  · rw [hsame.fills, hsame.tradeHistory]
    exact h.trades

theorem Logged.noPosition (h : engine.Logged) (call : OrderCall) :
    (engine.decided (noPositionDecision call)).Logged := by
  refine ⟨h.numbered, ?_, ?_, ?_, h.trades⟩
  · rw [decisionIds_decided, noPositionDecision_hasOrder, h.decisions]
    exact List.append_nil _
  · intro decision hmem hnone
    rcases List.mem_append.mp hmem with hmem | hmem
    · exact h.unnamed decision hmem hnone
    · rw [List.mem_singleton.mp hmem]
      exact ⟨rfl, rfl⟩
  · rw [approvedIds_decided]
    exact h.fills.trans (List.sublist_append_left _ _)

/-- A new order and its decision. -/
theorem Logged.decided (h : engine.Logged) (quote : Quote)
    (hassessed : Assessed engine clock call order quote assessed) :
    (assessed.decided (riskDecision order quote)).Logged := by
  obtain ⟨orders, fills, horders, hfills, hnodup, hfillsNodup, hle⟩ := h.numbered
  refine ⟨⟨orders ++ [engine.sequence + 1], fills, ?_, ?_, ?_, hfillsNodup, ?_⟩, ?_, ?_, ?_, ?_⟩
  · show assessed.orders.map Order.orderId = _
    rw [hassessed.orders, List.map_append, List.map_append, horders]
    simp [hassessed.orderId]
  · show assessed.fills.map Fill.fillId = _
    rw [hassessed.fills, hfills]
  · refine List.nodup_append.mpr ⟨hnodup, List.nodup_singleton _, ?_⟩
    rintro n hn m hm rfl
    have := hle n (List.mem_append_left _ hn)
    rw [List.mem_singleton] at hm
    omega
  · intro n hn
    show n ≤ assessed.sequence
    rw [hassessed.sequence]
    simp only [List.mem_append, List.mem_singleton] at hn
    rcases hn with (hn | hn) | hn
    · exact (hle n (List.mem_append_left _ hn)).trans (Nat.le_succ _)
    · exact hn.le
    · exact (hle n (List.mem_append_right _ hn)).trans (Nat.le_succ _)
  · show _ = assessed.orders.map Order.orderId
    have hdecisions : assessed.decisionIds = engine.orders.map Order.orderId := by
      rw [decisionIds, hassessed.riskDecisions]
      exact h.decisions
    rw [decisionIds_decided, riskDecision_hasOrder, hdecisions, hassessed.orders, List.map_append]
    rfl
  · intro decision hmem hnone
    simp only [BacktestEngine.decided, hassessed.riskDecisions, List.mem_append,
      List.mem_singleton] at hmem
    rcases hmem with hmem | rfl
    · exact h.unnamed decision hmem hnone
    · rw [riskDecision_hasOrder] at hnone
      cases hnone
  · have happroved : assessed.approvedIds = engine.approvedIds := by
      rw [approvedIds, hassessed.riskDecisions, approvedIds]
    show (assessed.fills.map Fill.orderId).Sublist _
    rw [approvedIds_decided, happroved, hassessed.fills]
    exact h.fills.trans (List.sublist_append_left _ _)
  · show assessed.fills.length = assessed.portfolio.tradeHistory.length
    rw [hassessed.fills, hassessed.portfolio]
    exact h.trades

/-- A fill of the new order, and the trade that it is. -/
theorem Logged.filled (h : engine.Logged)
    (hassessed : Assessed engine clock call order quote assessed)
    (happroved : quote.result.approved = true) {portfolio : Portfolio} {entry : TradeEntry}
    (hhistory : portfolio.tradeHistory = engine.portfolio.tradeHistory ++ [entry]) :
    ((assessed.decided (riskDecision order quote)).filled order quote portfolio).Logged := by
  have hdecided := h.decided quote hassessed
  obtain ⟨orders, fills, horders, hfills, hnodup, hfillsNodup, hle⟩ := hdecided.numbered
  refine ⟨⟨orders, fills ++ [assessed.sequence + 1], horders, ?_, hnodup, ?_, ?_⟩,
    hdecided.decisions, hdecided.unnamed, ?_, ?_⟩
  · show (assessed.fills ++ [_]).map Fill.fillId = _
    rw [List.map_append, List.map_append]
    exact congrArg (· ++ [backtestId "fill" (assessed.sequence + 1)]) hfills
  · refine List.nodup_append.mpr ⟨hfillsNodup, List.nodup_singleton _, ?_⟩
    rintro n hn m hm rfl
    have : n ≤ assessed.sequence := hle n (List.mem_append_right _ hn)
    rw [List.mem_singleton] at hm
    omega
  · intro n hn
    show n ≤ assessed.sequence + 1
    simp only [List.mem_append, List.mem_singleton] at hn
    rcases hn with hn | hn | hn
    · exact (hle n (List.mem_append_left _ hn)).trans (Nat.le_succ _)
    · exact (hle n (List.mem_append_right _ hn)).trans (Nat.le_succ _)
    · exact hn.le
  · have hids : assessed.approvedIds = engine.approvedIds := by
      rw [approvedIds, hassessed.riskDecisions, approvedIds]
    show ((assessed.fills ++ [_]).map Fill.orderId).Sublist
      (assessed.decided (riskDecision order quote)).approvedIds
    rw [approvedIds_decided, hids, hassessed.fills, List.map_append]
    have hown : (riskDecision order quote).approved = true := happroved
    rw [if_pos hown]
    exact h.fills.append (List.Sublist.refl _)
  · show (assessed.fills ++ [_]).length = portfolio.tradeHistory.length
    rw [hhistory, hassessed.fills, List.length_append, List.length_append, h.trades]
    rfl

/-! ### Complete trails -/

theorem Complete.same_iff {after : BacktestEngine} (hsame : engine.SameLogs after) :
    after.Complete ↔ engine.Complete := by
  have hids : after.approvedIds = engine.approvedIds := by
    rw [approvedIds, hsame.riskDecisions, approvedIds]
  constructor
  · rintro ⟨hfills, htrades⟩
    rw [hsame.fills, hids] at hfills
    rw [hsame.fills, hsame.tradeHistory] at htrades
    exact ⟨hfills, htrades⟩
  · rintro ⟨hfills, htrades⟩
    refine ⟨?_, ?_⟩
    · rw [hsame.fills, hids, hfills]
    · rw [hsame.fills, hsame.tradeHistory]
      exact htrades

/-- A decision that does not approve adds nothing to fill. -/
theorem complete_decided_iff {decision : RiskDecision} (h : decision.approved = false) :
    (engine.decided decision).Complete ↔ engine.Complete := by
  have hids : (engine.decided decision).approvedIds = engine.approvedIds := by
    rw [approvedIds_decided, h]
    exact List.append_nil _
  constructor
  · rintro ⟨hfills, htrades⟩
    rw [hids] at hfills
    exact ⟨hfills, htrades⟩
  · rintro ⟨hfills, htrades⟩
    refine ⟨?_, htrades⟩
    rw [hids]
    exact hfills

theorem complete_assessed_iff (hassessed : Assessed engine clock call order quote assessed) :
    assessed.Complete ↔ engine.Complete := by
  have hids : assessed.approvedIds = engine.approvedIds := by
    rw [approvedIds, hassessed.riskDecisions, approvedIds]
  constructor
  · rintro ⟨hfills, htrades⟩
    rw [hassessed.fills, hids] at hfills
    rw [hassessed.fills, hassessed.portfolio] at htrades
    exact ⟨hfills, htrades⟩
  · rintro ⟨hfills, htrades⟩
    refine ⟨?_, ?_⟩
    · rw [hassessed.fills, hids, hfills]
    · rw [hassessed.fills, hassessed.portfolio]
      exact htrades

/-- An approved order without a fill is never filled. -/
theorem not_complete_refused (h : engine.Logged)
    (hassessed : Assessed engine clock call order quote assessed)
    (happroved : quote.result.approved = true) :
    ¬(assessed.decided (riskDecision order quote)).Complete := by
  intro hcomplete
  have hids : assessed.approvedIds = engine.approvedIds := by
    rw [approvedIds, hassessed.riskDecisions, approvedIds]
  have hown : (riskDecision order quote).approved = true := happroved
  have hfills := congrArg List.length hcomplete.fills
  rw [approvedIds_decided, hids, if_pos hown, List.length_append] at hfills
  have hle := h.fills.length_le
  rw [← hassessed.fills] at hle
  have : (assessed.fills.map Fill.orderId).length = engine.approvedIds.length + 1 := hfills
  omega

theorem forall₂_concat_iff {α β : Type} {R : α → β → Prop} {first : List α} {second : List β}
    {a : α} {b : β} : List.Forall₂ R (first ++ [a]) (second ++ [b]) ↔
      List.Forall₂ R first second ∧ R a b := by
  rw [← List.forall₂_reverse_iff]
  simp [and_comm]

/-- A fill completes the trail when it is the trade that the history records. -/
theorem complete_filled_iff (hassessed : Assessed engine clock call order quote assessed)
    (happroved : quote.result.approved = true) {portfolio : Portfolio} {entry : TradeEntry}
    (hhistory : portfolio.tradeHistory = engine.portfolio.tradeHistory ++ [entry]) :
    ((assessed.decided (riskDecision order quote)).filled order quote portfolio).Complete ↔
      engine.Complete ∧ (assessed.fillOf order quote).Matches entry := by
  have hids : ((assessed.decided (riskDecision order quote)).filled order quote
      portfolio).approvedIds = engine.approvedIds ++ [order.orderId] := by
    have hassessedIds : assessed.approvedIds = engine.approvedIds := by
      rw [approvedIds, hassessed.riskDecisions, approvedIds]
    have hown : (riskDecision order quote).approved = true := happroved
    rw [← hassessedIds]
    exact (approvedIds_decided _).trans (by rw [if_pos hown]; rfl)
  have hfills : ((assessed.decided (riskDecision order quote)).filled order quote
      portfolio).fills = engine.fills ++ [assessed.fillOf order quote] := by
    rw [← hassessed.fills]
    rfl
  have htrades : ((assessed.decided (riskDecision order quote)).filled order quote
      portfolio).portfolio.tradeHistory = engine.portfolio.tradeHistory ++ [entry] := hhistory
  constructor
  · rintro ⟨hcomplete, hmatches⟩
    rw [hids, hfills, List.map_append] at hcomplete
    rw [hfills, htrades, forall₂_concat_iff] at hmatches
    exact ⟨⟨(List.append_inj' hcomplete rfl).1, hmatches.1⟩, hmatches.2⟩
  · rintro ⟨⟨hcomplete, hmatches⟩, hentry⟩
    refine ⟨?_, ?_⟩
    · rw [hids, hfills, List.map_append, hcomplete]
      rfl
    · rw [hfills, htrades, forall₂_concat_iff]
      exact ⟨hmatches, hentry⟩

end Order

/-! ### Orders that complete the trail -/

/-- A buy that is approved can be paid with its commission, and a sale that is approved is approved
at the quantity that is held. -/
structure Audited (engine : BacktestEngine) (clock : ℕ → Datetime) (call : OrderCall) : Prop where
  paid : ∀ order quote assessed, Assessed engine clock call order quote assessed →
    quote.result.approved = true → order.side = .buy →
      (engine.opening order quote).cost ≤ engine.portfolio.balance
  whole : ∀ order quote assessed, Assessed engine clock call order quote assessed →
    quote.result.approved = true → order.side = .sell → quote.quantity = order.quantity

section Order

variable {engine assessed : BacktestEngine} {clock : ℕ → Datetime} {order : Order} {quote : Quote}
  {call : OrderCall}

/-- The condition is about the one order that the call creates, if it creates any. -/
theorem audited_iff (hassessed : Assessed engine clock call order quote assessed) :
    engine.Audited clock call ↔ (quote.result.approved = true →
      (order.side = .buy → (engine.opening order quote).cost ≤ engine.portfolio.balance) ∧
        (order.side = .sell → quote.quantity = order.quantity)) := by
  constructor
  · intro h happroved
    exact ⟨h.paid _ _ _ hassessed happroved, h.whole _ _ _ hassessed happroved⟩
  · intro h
    refine ⟨fun other quote' assessed' hother happroved hside => ?_,
      fun other quote' assessed' hother happroved hside => ?_⟩
    · obtain ⟨rfl, rfl, rfl⟩ := hassessed.unique hother
      exact (h happroved).1 hside
    · obtain ⟨rfl, rfl, rfl⟩ := hassessed.unique hother
      exact (h happroved).2 hside

theorem audited_of_noPosition
    (haction : (SignalAction.ofValue? call.signal.action).map SignalAction.side = some .sell)
    (hflat : engine.portfolio.getPosition call.signal.symbol = none) :
    engine.Audited clock call := by
  have hnone : ∀ order quote assessed, ¬Assessed engine clock call order quote assessed := by
    intro order quote assessed h
    have hside : order.side = .sell := Option.some.inj (h.action.symm.trans haction)
    have hquantity := h.quantity
    simp [hside, orderQuantity, hflat] at hquantity
  exact ⟨fun _ _ _ h => absurd h (hnone _ _ _), fun _ _ _ h => absurd h (hnone _ _ _)⟩

theorem Assessed.heldQuantity {position : Position}
    (h : Assessed engine clock call order quote assessed) (hside : order.side = .sell)
    (hheld : engine.portfolio.getPosition call.signal.symbol = some position) :
    order.quantity = position.quantity := by
  have hquantity := h.quantity
  rw [hside, orderQuantity, hheld] at hquantity
  exact (Option.some.inj hquantity).symm

theorem matches_entry (h : Assessed engine clock call order quote assessed)
    (hside : order.side = .buy) :
    (assessed.fillOf order quote).Matches (engine.opening order quote).entry :=
  ⟨hside, rfl, rfl, rfl, h.commission⟩

theorem matches_closingEntry_iff {position : Position}
    (h : Assessed engine clock call order quote assessed) (hside : order.side = .sell)
    (hheld : engine.portfolio.getPosition call.signal.symbol = some position) :
    (assessed.fillOf order quote).Matches (Portfolio.closingEntry call.signal.symbol position
        quote.executionPrice (engine.commission quote) call.timestamp) ↔
      quote.quantity = order.quantity := by
  rw [h.heldQuantity hside hheld]
  exact ⟨fun hmatches => hmatches.2.2.2.1,
    fun hquantity => ⟨hside, h.symbol, rfl, hquantity, h.commission⟩⟩

theorem Outcome.logged {after : BacktestEngine} {fill : Option Fill} (h : engine.Logged)
    (houtcome : Outcome engine clock call fill after) : after.Logged := by
  cases houtcome with
  | noPosition haction hflat => exact h.noPosition call
  | rejected hassessed hrejected => exact h.decided _ hassessed
  | refused hassessed happroved hside hrefused => exact h.decided _ hassessed
  | bought hassessed happroved hside haffords => exact h.filled hassessed happroved rfl
  | sold hassessed happroved hside hheld => exact h.filled hassessed happroved rfl

/-- An order completes the trail exactly when it is audited. -/
theorem Outcome.complete_iff {after : BacktestEngine} {fill : Option Fill} (h : engine.Logged)
    (houtcome : Outcome engine clock call fill after) :
    after.Complete ↔ engine.Complete ∧ engine.Audited clock call := by
  cases houtcome with
  | noPosition haction hflat =>
    rw [complete_decided_iff rfl, and_iff_left (audited_of_noPosition haction hflat)]
  | @rejected order quote assessed hassessed hrejected =>
    rw [complete_decided_iff hrejected, complete_assessed_iff hassessed, audited_iff hassessed,
      hrejected]
    exact (and_iff_left fun h => Bool.noConfusion h).symm
  | @refused order quote assessed hassessed happroved hside hrefused =>
    have hbroken := not_complete_refused h hassessed happroved
    refine iff_of_false hbroken fun ⟨_, haudited⟩ => hrefused ⟨rfl, ?_, ?_⟩
    · exact (assess_pos hassessed.assess happroved).1
    · exact haudited.paid _ _ _ hassessed happroved hside
  | @bought order quote assessed hassessed happroved hside haffords =>
    rw [complete_filled_iff hassessed happroved rfl, audited_iff hassessed]
    refine and_congr_right fun _ => iff_of_true (matches_entry hassessed hside) fun _ => ?_
    exact ⟨fun _ => haffords.cost, fun hsell => by rw [hside] at hsell; cases hsell⟩
  | @sold order quote assessed position hassessed happroved hside hheld =>
    rw [complete_filled_iff hassessed happroved rfl, audited_iff hassessed,
      matches_closingEntry_iff hassessed hside hheld]
    refine and_congr_right fun _ => ⟨fun hquantity _ => ⟨fun hbuy => ?_, fun _ => hquantity⟩,
      fun haudited => (haudited happroved).2 hside⟩
    rw [hside] at hbuy
    cases hbuy

end Order

/-! ### Runs -/

/-- The condition on an event: an order is audited. -/
def AuditedEvent (clock : ℕ → Datetime) (engine : BacktestEngine) (event : EngineEvent) : Prop :=
  ∀ call, event = .order call → engine.Audited clock call

section Run

variable {clock : ℕ → Datetime} {engine after : BacktestEngine} {event : EngineEvent}

theorem Logged.step (h : engine.Logged) (hstep : EngineStep clock engine event after) :
    after.Logged := by
  rcases hstep.cases with ⟨-, hsame⟩ | ⟨call, fill, -, houtcome⟩
  · exact h.same hsame
  · exact houtcome.logged h

theorem complete_step_iff (h : engine.Logged) (hstep : EngineStep clock engine event after) :
    after.Complete ↔ engine.Complete ∧ engine.AuditedEvent clock event := by
  rcases hstep.cases with ⟨hother, hsame⟩ | ⟨call, fill, rfl, houtcome⟩
  · rw [Complete.same_iff hsame]
    exact (and_iff_left fun call he => absurd he (hother call)).symm
  · rw [houtcome.complete_iff h]
    refine and_congr_right fun _ => ⟨fun haudited other he => ?_, fun haudited => haudited call rfl⟩
    cases he
    exact haudited

theorem logged_new (config : BacktestConfig) (riskEngine : RiskEngine) (draws : ℕ → Decimal) :
    (BacktestEngine.new config riskEngine draws).Logged :=
  ⟨⟨[], [], rfl, rfl, .nil, .nil, fun _ h => absurd h List.not_mem_nil⟩, rfl,
    fun _ h => absurd h List.not_mem_nil, .slnil, rfl⟩

theorem complete_new (config : BacktestConfig) (riskEngine : RiskEngine) (draws : ℕ → Decimal) :
    (BacktestEngine.new config riskEngine draws).Complete :=
  ⟨rfl, .nil⟩

end Run

/-! ### The trail of the results -/

section Results

variable {engine : BacktestEngine}

theorem Logged.orderIds_nodup (h : engine.Logged) : (engine.orders.map Order.orderId).Nodup := by
  obtain ⟨orders, fills, horders, -, hnodup, -⟩ := h.numbered
  rw [horders]
  exact hnodup.map (backtestId_injective "order")

theorem Logged.ids_nodup (h : engine.Logged) :
    (engine.orders.map Order.orderId ++ engine.fills.map Fill.fillId).Nodup := by
  refine List.nodup_append.mpr ⟨h.orderIds_nodup, ?_, ?_⟩
  · obtain ⟨orders, fills, -, hfills, -, hnodup, -⟩ := h.numbered
    rw [hfills]
    exact hnodup.map (backtestId_injective "fill")
  · obtain ⟨orders, fills, horders, hfills, -⟩ := h.numbered
    rw [horders, hfills]
    intro id hid other hother he
    obtain ⟨n, -, rfl⟩ := List.mem_map.mp hid
    obtain ⟨m, -, rfl⟩ := List.mem_map.mp hother
    exact backtestId_order_ne_fill n m he

theorem Logged.orderId_ne_empty (h : engine.Logged) {order : Order} (horder : order ∈ engine.orders) :
    order.orderId ≠ "" := by
  obtain ⟨orders, fills, horders, -⟩ := h.numbered
  have hmem : order.orderId ∈ engine.orders.map Order.orderId := List.mem_map_of_mem horder
  rw [horders] at hmem
  obtain ⟨n, -, hn⟩ := List.mem_map.mp hmem
  rw [← hn]
  exact backtestId_ne_empty "order" n

/-- What approves has an order. -/
theorem Logged.approvedIds_sublist (h : engine.Logged) :
    engine.approvedIds.Sublist engine.decisionIds := by
  have hfilter : engine.riskDecisions.filter RiskDecision.approved =
      (engine.riskDecisions.filter RiskDecision.hasOrder).filter RiskDecision.approved := by
    rw [List.filter_filter]
    refine List.filter_congr fun decision hmem => ?_
    cases hnamed : decision.hasOrder with
    | false => simp [(h.unnamed decision hmem hnamed).2]
    | true => simp
  rw [approvedIds, hfilter]
  exact List.filter_sublist.map _

theorem Logged.order_of_fill (h : engine.Logged) {fill : Fill} (hfill : fill ∈ engine.fills) :
    ∃ order ∈ engine.orders, order.orderId = fill.orderId := by
  have hid : fill.orderId ∈ engine.decisionIds :=
    h.approvedIds_sublist.subset (h.fills.subset (List.mem_map_of_mem hfill))
  rw [h.decisions] at hid
  exact List.mem_map.mp hid

theorem Logged.decisionIds_nodup (h : engine.Logged) : engine.decisionIds.Nodup := by
  rw [h.decisions]
  exact h.orderIds_nodup

theorem Logged.decision_mem (h : engine.Logged) {decision : RiskDecision}
    (hmem : decision ∈ engine.riskDecisions) {order : Order} (horder : order ∈ engine.orders)
    (hid : decision.orderId = order.orderId) :
    decision ∈ engine.riskDecisions.filter RiskDecision.hasOrder := by
  refine List.mem_filter.mpr ⟨hmem, ?_⟩
  cases hnamed : decision.hasOrder with
  | true => rfl
  | false =>
    have hempty := hid.symm.trans (h.unnamed decision hmem hnamed).1
    exact absurd hempty (h.orderId_ne_empty horder)

theorem count_map_filter {α β : Type} [DecidableEq β] {f : α → β} {p : α → Bool} (items : List α)
    {b : β} (h : ∀ item ∈ items, f item = b → p item = true) :
    ((items.filter p).map f).count b = (items.map f).count b := by
  induction items with
  | nil => rfl
  | cons item rest ih =>
    have ih := ih fun other hmem => h other (List.mem_cons_of_mem _ hmem)
    by_cases hp : p item = true
    · simp [List.filter_cons_of_pos hp, List.count_cons, ih]
    · have hne : f item ≠ b := fun he => hp (h item List.mem_cons_self he)
      simp [List.filter_cons_of_neg hp, ih, hne]

/-- The trail is one-to-one exactly when it is complete. -/
theorem Logged.trail_iff_complete (h : engine.Logged) :
    AuditTrail engine.calculateResults ↔ engine.Complete := by
  constructor
  · intro haudit
    refine ⟨h.fills.eq_of_length_le ?_, haudit.trades⟩
    have hnodup := h.decisionIds_nodup.sublist h.approvedIds_sublist
    refine (List.Nodup.subperm hnodup fun id hid => ?_).length_le
    obtain ⟨decision, hdecision, rfl⟩ := List.mem_map.mp hid
    obtain ⟨hmem, happroved⟩ := List.mem_filter.mp hdecision
    have hordered : decision.orderId ∈ engine.orders.map Order.orderId :=
      h.decisions ▸ h.approvedIds_sublist.subset hid
    obtain ⟨order, horder, hsame⟩ := List.mem_map.mp hordered
    have hcount := haudit.filled order horder decision hmem hsame.symm
    rw [if_pos happroved, hsame] at hcount
    exact List.count_pos_iff.mp (hcount ▸ Nat.one_pos)
  · intro hcomplete
    have hnodup := h.decisionIds_nodup
    refine ⟨h.ids_nodup, fun order horder => ?_, fun decision hmem hnamed => ?_,
      fun order horder decision hmem hid => ?_, hcomplete.trades⟩
    · have hcount := count_map_filter (f := RiskDecision.orderId) (p := RiskDecision.hasOrder)
        engine.riskDecisions (b := order.orderId) fun decision hmem hid =>
          (List.mem_filter.mp (h.decision_mem hmem horder hid)).2
      have hids : engine.decisionIds.count order.orderId = 1 := by
        rw [h.decisions]
        exact List.count_eq_one_of_mem h.orderIds_nodup (List.mem_map_of_mem horder)
      exact hcount.symm.trans hids
    · have hid : decision.orderId ∈ engine.decisionIds :=
        List.mem_map_of_mem (List.mem_filter.mpr ⟨hmem, hnamed⟩)
      rw [h.decisions] at hid
      exact List.count_eq_one_of_mem h.orderIds_nodup hid
    · have hown := h.decision_mem hmem horder hid
      have happrovedIds := hnodup.sublist h.approvedIds_sublist
      show (engine.fills.map Fill.orderId).count order.orderId = _
      rw [hcomplete.fills, ← hid]
      cases happroved : decision.approved with
      | true =>
        rw [if_pos rfl]
        exact List.count_eq_one_of_mem happrovedIds
          (List.mem_map_of_mem (List.mem_filter.mpr ⟨hmem, happroved⟩))
      | false =>
        rw [if_neg Bool.false_ne_true, List.count_eq_zero]
        intro hother
        obtain ⟨other, hother, hsame⟩ := List.mem_map.mp hother
        obtain ⟨hotherMem, hotherApproved⟩ := List.mem_filter.mp hother
        have hotherOwn := h.decision_mem hotherMem horder (hsame.trans hid)
        have heq := List.inj_on_of_nodup_map hnodup hotherOwn hown hsame
        rw [heq, happroved] at hotherApproved
        cases hotherApproved

end Results

end BacktestEngine

/-- The audit trail of a run is one-to-one exactly when each of its orders is audited: an approved buy
can be paid with its commission, and an approved sale is of the quantity that is held. -/
theorem auditTrail_iff {σ ι : Type} (run : BacktestRun σ ι) (config : BacktestConfig)
    (riskEngine : RiskEngine) (draws : ℕ → Decimal) (result : BacktestResult)
    (trace : List EngineEvent)
    (h : (run.result (.new config riskEngine draws)).Returns result trace) :
    AuditTrail result ↔ ∀ before event after,
      Run.Makes (EngineStep run.clock) (.new config riskEngine draws) trace before event after →
        before.AuditedEvent run.clock event := by
  obtain ⟨engine, events, rest, hexecute, hpure, rfl⟩ := Traced.returns_bind_iff.mp h
  obtain ⟨rfl, rfl⟩ := Traced.returns_pure_iff.mp hpure
  have hrun := run.execute_follows hexecute
  have hstart := BacktestEngine.logged_new config riskEngine draws
  have hlogged : engine.Logged := hrun.invariant (P := fun _ engine => engine.Logged) hstart
    fun _ _ _ _ hlogged hstep => hlogged.step hstep
  have hcomplete := hrun.iff_makes (EngineStep.deterministic run.clock) hstart
    (fun _ _ _ hlogged hstep => hlogged.step hstep)
    fun _ _ _ hlogged hstep => BacktestEngine.complete_step_iff hlogged hstep
  rw [hlogged.trail_iff_complete, hcomplete, List.append_nil,
    and_iff_right (BacktestEngine.complete_new config riskEngine draws)]

/-- A purchase at 100 under a minimum fee of 10000. -/
def unpaid : BacktestRun Unit Unit :=
  { candles := [flatCandle "BTCUSDT" 0 100, flatCandle "BTCUSDT" hour 100], strategy := buyOnce 1
    initialState := (), clock := fun _ => 0, runId := "" }

def unpaidEngine : BacktestEngine :=
  .new { commissionConfig := { minimumFee := 10000 } } {} fun _ => 0

/-- The order is approved, and the portfolio cannot pay for it. -/
theorem unpaid_unfilled : ∃ result, (unpaid.result unpaidEngine).value? = some result ∧
    ¬AuditTrail result := by
  have hunfilled : (unpaid.result unpaidEngine).value?.any (fun result =>
      decide (∃ order ∈ result.orders, ∃ decision ∈ result.riskDecisions,
        decision.orderId = order.orderId ∧ decision.approved = true ∧ result.fills = [])) = true := by
    decide +kernel
  obtain ⟨result, hresult, hany⟩ := (Option.any_eq_true _ _).mp hunfilled
  obtain ⟨order, horder, decision, hdecision, hid, happroved, hfills⟩ := of_decide_eq_true hany
  refine ⟨result, hresult, fun haudit => ?_⟩
  have hfilled := haudit.filled order horder decision hdecision hid
  simp [hfills, happroved] at hfilled

theorem auditTrail_fails : ¬∀ (run : BacktestRun Unit Unit) (config : BacktestConfig)
    (riskEngine : RiskEngine) (draws : ℕ → Decimal) (result : BacktestResult)
    (trace : List EngineEvent),
    (run.result (.new config riskEngine draws)).Returns result trace → AuditTrail result := by
  intro h
  obtain ⟨result, hresult, hnot⟩ := unpaid_unfilled
  exact hnot (h unpaid _ {} _ result _ (Traced.returns_of_value? hresult))

/-- `auditTrail_iff` for that run. -/
theorem unpaid_not_audited : ¬∀ before event after,
    Run.Makes (EngineStep unpaid.clock) unpaidEngine (unpaid.result unpaidEngine).trace before event
      after → before.AuditedEvent unpaid.clock event := by
  intro h
  obtain ⟨result, hresult, hnot⟩ := unpaid_unfilled
  exact hnot ((auditTrail_iff unpaid _ {} _ result _ (Traced.returns_of_value? hresult)).mpr h)

end CryptoTrading
