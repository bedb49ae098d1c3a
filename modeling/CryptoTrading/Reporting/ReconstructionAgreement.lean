import CryptoTrading.Backtest.AuditTrail
import CryptoTrading.Kit.RoundTrips
import CryptoTrading.Reporting.TradeReconstruction

/-! The trades that the reports reconstruct from the fills of a backtest are those that its portfolio
closes: the portfolio and both reports keep one book of round trips. -/

namespace CryptoTrading

open Kit

/-! ### The book of the portfolio -/

def Position.lot (position : Position) : Lot Decimal Datetime :=
  ⟨⟨position.quantity, position.entryPrice⟩, position.entryCommission, position.entryTime⟩

def Fill.deal (fill : Fill) : Deal Decimal Datetime :=
  ⟨decide (fill.side = .buy), fill.quantity, fill.price, fill.commission, fill.timestamp⟩

def TradeEntry.trip? : TradeEntry → Option (Trip Decimal Datetime)
  | .opened .. => none
  | .closed _ _ entryPrice _ quantity pnl _ entryTime exitTime =>
    some ⟨quantity, entryPrice, pnl, entryTime, exitTime⟩

namespace Portfolio

variable {portfolio : Portfolio} {symbol : String}

/-- The book of one symbol, of which all trades are. -/
def book (portfolio : Portfolio) (symbol : String) : Book Decimal Datetime :=
  ⟨(portfolio.getPosition symbol).map Position.lot,
    portfolio.tradeHistory.filterMap TradeEntry.trip?⟩

theorem book_lot {position : Position} (h : portfolio.getPosition symbol = some position) :
    (portfolio.book symbol).lot = some position.lot := by
  rw [book, h]
  rfl

theorem book_updatePositions (prices : Dict String Decimal) (timestamp : Datetime)
    (highs : Dict String Decimal) :
    (portfolio.updatePositions prices timestamp highs).book symbol = portfolio.book symbol := by
  simp only [book, updatePositions, getPosition, get?_marked]
  congr 1
  cases portfolio.positions.get? symbol with
  | none => rfl
  | some position => cases prices.get? symbol <;> rfl

/-- The deal of a purchase. -/
def Opening.deal (opening : Opening) : Deal Decimal Datetime :=
  ⟨true, opening.quantity, opening.price, opening.commission, opening.timestamp⟩

theorem book_purchased (portfolio : Portfolio) (opening : Opening) :
    (portfolio.purchased opening).book opening.symbol =
      (portfolio.book opening.symbol).deal opening.deal := by
  have htrips : (portfolio.purchased opening).tradeHistory.filterMap TradeEntry.trip? =
      portfolio.tradeHistory.filterMap TradeEntry.trip? := by
    simp [purchased, Opening.entry, TradeEntry.trip?]
  cases hheld : portfolio.positions.get? opening.symbol with
  | none =>
    have hlot : (portfolio.purchased opening).getPosition opening.symbol =
        some opening.position := by
      simp [getPosition, purchased, hheld]
    rw [book, htrips, hlot, Book.deal_first rfl (by rw [book, getPosition, hheld]; rfl)]
    rfl
  | some position =>
    have hlot : (portfolio.purchased opening).getPosition opening.symbol =
        some (opening.addTo position) := by
      simp [getPosition, purchased, hheld]
    rw [book, htrips, hlot, Book.deal_more rfl (book_lot hheld)]
    rfl

theorem book_sold {position : Position} (h : portfolio.getPosition symbol = some position)
    (quantity price commission : Decimal) (timestamp : Datetime) :
    (portfolio.sold symbol position price commission timestamp).book symbol =
      (portfolio.book symbol).deal ⟨false, quantity, price, commission, timestamp⟩ := by
  rw [Book.deal_sale rfl (book_lot h)]
  simp only [book, sold, getPosition, Dict.get?_erase, if_pos, Option.map_none,
    List.filterMap_append]
  rfl

end Portfolio

namespace BacktestEngine

/-- The fills are deals that lead to the book of the portfolio. -/
structure Booked (engine : BacktestEngine) (symbol : String) : Prop where
  admits : Book.AdmitsAll {} (engine.fills.map Fill.deal)
  book : (engine.fills.map Fill.deal).foldl Book.deal {} = engine.portfolio.book symbol

/-- Every sell that a step fills is of the whole quantity of a position. -/
def SellsWhole (engine after : BacktestEngine) : Prop :=
  ∀ fill ∈ after.fills.drop engine.fills.length, fill.side = .sell →
    (engine.portfolio.getPosition fill.symbol).map Position.quantity = some fill.quantity

instance (engine after : BacktestEngine) : Decidable (engine.SellsWhole after) :=
  inferInstanceAs (Decidable (∀ fill ∈ after.fills.drop engine.fills.length, fill.side = .sell →
    (engine.portfolio.getPosition fill.symbol).map Position.quantity = some fill.quantity))

section Step

variable {engine after assessed : BacktestEngine} {clock : ℕ → Datetime} {symbol : String}
  {call : OrderCall} {order : Order} {quote : Quote}

theorem Booked.same (h : engine.Booked symbol) (hfills : after.fills = engine.fills)
    (hbook : after.portfolio.book symbol = engine.portfolio.book symbol) : after.Booked symbol :=
  ⟨by rw [hfills]; exact h.admits, by rw [hfills, hbook]; exact h.book⟩

/-- A fill that is a deal of the book is booked by the deal. -/
theorem Booked.fill (h : engine.Booked symbol) {fill : Fill}
    (hfills : after.fills = engine.fills ++ [fill])
    (hadmits : (engine.portfolio.book symbol).Admits fill.deal)
    (hbook : after.portfolio.book symbol = (engine.portfolio.book symbol).deal fill.deal) :
    after.Booked symbol := by
  have hmap : after.fills.map Fill.deal = engine.fills.map Fill.deal ++ [fill.deal] := by
    rw [hfills, List.map_append]
    rfl
  constructor
  · rw [hmap, Book.admitsAll_concat, h.book]
    exact ⟨h.admits, hadmits⟩
  · rw [hmap, List.foldl_append, h.book, List.foldl_cons, List.foldl_nil, hbook]

theorem Booked.decided (h : engine.Booked symbol)
    (hassessed : Assessed engine clock call order quote assessed) :
    (assessed.decided (riskDecision order quote)).Booked symbol := by
  have hportfolio : (assessed.decided (riskDecision order quote)).portfolio = engine.portfolio :=
    hassessed.portfolio
  exact h.same hassessed.fills (by rw [hportfolio])

theorem fillOf_deal (hassessed : Assessed engine clock call order quote assessed) :
    (assessed.fillOf order quote).deal = ⟨decide (order.side = .buy), quote.quantity,
      quote.executionPrice, engine.commission quote, call.timestamp⟩ := by
  rw [← hassessed.commission, ← hassessed.createdAt]
  rfl

theorem Booked.bought (h : engine.Booked symbol)
    (hassessed : Assessed engine clock call order quote assessed) (hside : order.side = .buy)
    (haffords : engine.portfolio.Affords (engine.opening order quote))
    (hsymbol : call.signal.symbol = symbol) :
    ((assessed.decided (riskDecision order quote)).filled order quote
      (engine.portfolio.purchased (engine.opening order quote))).Booked symbol := by
  have hdeal : (assessed.fillOf order quote).deal = (engine.opening order quote).deal := by
    rw [fillOf_deal hassessed, decide_eq_true hside, ← hassessed.createdAt]
    rfl
  have hopening : (engine.opening order quote).symbol = symbol := hassessed.symbol.trans hsymbol
  refine h.fill (congrArg (· ++ [assessed.fillOf order quote]) hassessed.fills) ?_ ?_
  · rw [hdeal]
    exact .buy rfl haffords.quantity_pos
  · rw [hdeal, ← hopening]
    exact Portfolio.book_purchased _ _

theorem Booked.sold (h : engine.Booked symbol) {position : Position}
    (hassessed : Assessed engine clock call order quote assessed) (hside : order.side = .sell)
    (hheld : engine.portfolio.getPosition call.signal.symbol = some position)
    (hwhole : quote.quantity = position.quantity) (hsymbol : call.signal.symbol = symbol) :
    ((assessed.decided (riskDecision order quote)).filled order quote
      (engine.portfolio.sold call.signal.symbol position quote.executionPrice
        (engine.commission quote) call.timestamp)).Booked symbol := by
  have hdeal : (assessed.fillOf order quote).deal = ⟨false, quote.quantity,
      quote.executionPrice, engine.commission quote, call.timestamp⟩ := by
    rw [fillOf_deal hassessed, hside]
    rfl
  subst hsymbol
  refine h.fill (congrArg (· ++ [assessed.fillOf order quote]) hassessed.fills) ?_ ?_
  · rw [hdeal]
    exact .sell rfl (Portfolio.book_lot hheld) hwhole
  · rw [hdeal]
    exact Portfolio.book_sold hheld _ _ _ _

theorem Booked.step {event : EngineEvent} (h : engine.Booked symbol)
    (hstep : EngineStep clock engine event after) (hwhole : engine.SellsWhole after)
    (hsymbol : ∀ fill ∈ after.fills, fill.symbol = symbol) : after.Booked symbol := by
  obtain ⟨fill, happly⟩ := hstep
  cases event with
  | signal index signal => cases happly; exact h.same rfl rfl
  | mark marked close high timestamp =>
    cases happly
    exact h.same rfl (Portfolio.book_updatePositions _ _ _)
  | drawdown drawdown => cases happly; exact h.same rfl rfl
  | order call =>
    cases createAndExecuteOrder_outcome happly with
    | noPosition _ _ => exact h.same rfl rfl
    | rejected hassessed _ => exact h.decided hassessed
    | refused hassessed _ _ _ => exact h.decided hassessed
    | bought hassessed _ hside haffords =>
      refine h.bought hassessed hside haffords ?_
      rw [← hassessed.symbol]
      exact hsymbol _ (List.mem_append_right _ List.mem_cons_self)
    | @sold order quote assessed position hassessed _ hside hheld =>
      have hfillSymbol : order.symbol = symbol :=
        hsymbol _ (List.mem_append_right _ List.mem_cons_self)
      have hadded : assessed.fillOf order quote ∈
          (assessed.fills ++ [assessed.fillOf order quote]).drop engine.fills.length := by
        rw [hassessed.fills, List.drop_left]
        exact List.mem_cons_self
      have hfilled := hwhole _ hadded hside
      have hquantity : quote.quantity = position.quantity := by
        have hlookup : (assessed.fillOf order quote).symbol = call.signal.symbol :=
          hassessed.symbol
        rw [hlookup, hheld] at hfilled
        exact (Option.some.inj hfilled).symm
      exact h.sold hassessed hside hheld hquantity (hassessed.symbol ▸ hfillSymbol)

end Step

end BacktestEngine

/-! ### The books of the reports -/

def OpenPosition.lot (position : OpenPosition) : Lot Decimal Datetime :=
  ⟨⟨position.quantity, position.entryPrice⟩, position.entryCommission, position.entryTime⟩

def ClosedTrade.trip (trade : ClosedTrade) : Trip Decimal Datetime :=
  ⟨trade.quantity, trade.entryPrice, trade.pnl, trade.entryTime, trade.exitTime⟩

/-- The state of the attribution report keeps a book. -/
structure Attribution.Keeps (state : Attribution) (book : Book Decimal Datetime) : Prop where
  lot : state.position.map OpenPosition.lot = book.lot
  trips : state.trades.map ClosedTrade.trip = book.trips

theorem Attribution.Keeps.row {state : Attribution} {book : Book Decimal Datetime}
    (h : state.Keeps book) (hpositive : book.Positive) {fill : Fill} (order : Order)
    (hadmits : book.Admits fill.deal) :
    ∃ next, state.row (auditRow fill order) = .ok next ∧ next.Keeps (book.deal fill.deal) := by
  have htext : (auditRow fill order).side.toLower = fill.side.text := OrderSide.text_toLower fill.side
  have hlot := h.lot
  cases hadmits with
  | buy isBuy positive =>
    have hside : fill.side = .buy := of_decide_eq_true isBuy
    cases hposition : state.position with
    | none =>
      rw [hposition] at hlot
      refine ⟨{ state with position := some (auditRow fill order).position }, ?_, ?_⟩
      · simp [Attribution.row, htext, hside, OrderSide.text, hposition]
      · rw [Book.deal_first isBuy hlot.symm]
        exact ⟨rfl, h.trips⟩
    | some position =>
      rw [hposition] at hlot
      have hquantity : 0 < position.quantity := hpositive position.lot hlot.symm
      have htotal : 0 < position.quantity + (auditRow fill order).quantity :=
        add_pos hquantity positive
      refine ⟨{ state with position := some ((auditRow fill order).addTo position) }, ?_, ?_⟩
      · simp [Attribution.row, htext, hside, OrderSide.text, hposition, htotal.not_ge]
      · rw [Book.deal_more isBuy hlot.symm]
        exact ⟨rfl, h.trips⟩
  | sell isSell held whole =>
    have hside : fill.side = .sell := by
      cases hfill : fill.side with
      | buy => simp [Fill.deal, hfill] at isSell
      | sell => rfl
    rw [held] at hlot
    obtain ⟨position, hposition, rfl⟩ := Option.map_eq_some_iff.mp hlot
    have hdelta : |(auditRow fill order).quantity - position.quantity| = 0 :=
      abs_eq_zero.mpr (sub_eq_zero.mpr whole)
    have htolerance : ¬(0 : Decimal) > quantityReconciliationTolerance := by decide +kernel
    refine ⟨⟨none, state.trades ++ [(auditRow fill order).close position]⟩, ?_, ?_⟩
    · simp [Attribution.row, htext, hside, OrderSide.text, hposition, hdelta, htolerance]
    · rw [Book.deal_sale isSell held]
      refine ⟨rfl, ?_⟩
      rw [List.map_append, h.trips]
      rfl

/-- The state of the entry-funnel report keeps a book, but for the quantity and the price of its
trips. -/
structure Funnel.Keeps (state : Funnel) (book : Book Decimal Datetime) : Prop where
  flat : book.lot = none → state.quantity = 0
  lot : ∀ lot, book.lot = some lot → state.quantity = lot.quantity ∧
    state.weightedEntry = lot.average ∧ state.entryCommission = lot.commission ∧
    state.entryFillTime = some lot.openedAt ∧ ∃ time, state.entrySignalTime = some time
  trips : state.records.map (fun record => (record.pnl, record.entryFillTime, record.exitTime)) =
    book.trips.map fun trip => (trip.pnl, trip.openedAt, trip.closedAt)

theorem Funnel.Keeps.fill {state : Funnel} {book : Book Decimal Datetime} (h : state.Keeps book)
    (hpositive : book.Positive) {fill : Fill} {signals : Dict String Signal} {signal : Signal}
    (hsignal : signals.get? fill.orderId = some signal) (hadmits : book.Admits fill.deal) :
    ∃ next, state.fill signals fill = .ok next ∧ next.Keeps (book.deal fill.deal) := by
  cases hadmits with
  | buy isBuy positive =>
    have hside : fill.side = .buy := of_decide_eq_true isBuy
    have htext : fill.side.text.toLower = "buy" := by rw [OrderSide.text_toLower, hside]; rfl
    have hturn : state.fill signals fill = state.buy signal fill := by
      simp [Funnel.fill, hsignal, htext]
    cases hheld : book.lot with
    | none =>
      have hflat := h.flat hheld
      rw [hturn, Funnel.buy, if_pos hflat, Book.deal_first isBuy hheld]
      refine ⟨_, rfl, fun hnone => (by cases hnone), ?_, h.trips⟩
      rintro lot ⟨⟩
      exact ⟨rfl, rfl, rfl, rfl, _, rfl⟩
    | some lot =>
      obtain ⟨hquantity, haverage, hcommission, htime, hsignalTime⟩ := h.lot lot hheld
      have hlot : 0 < state.quantity := hquantity ▸ hpositive lot hheld
      have htotal : 0 < state.quantity + fill.quantity := add_pos hlot positive
      rw [hturn, Funnel.buy, if_neg hlot.ne', Book.deal_more isBuy hheld]
      simp only [if_neg htotal.ne']
      refine ⟨_, rfl, fun hnone => (by cases hnone), ?_, h.trips⟩
      rintro next ⟨⟩
      refine ⟨congrArg (· + fill.quantity) hquantity, ?_,
        congrArg (· + fill.commission) hcommission, htime, hsignalTime⟩
      simp only [hquantity, haverage]
      rfl
  | @sell lot isSell held whole =>
    have hside : fill.side = .sell := by
      cases hfill : fill.side with
      | buy => simp [Fill.deal, hfill] at isSell
      | sell => rfl
    have htext : fill.side.text.toLower = "sell" := by rw [OrderSide.text_toLower, hside]; rfl
    have hturn : state.fill signals fill = state.sell signal fill := by
      simp [Funnel.fill, hsignal, htext]
    obtain ⟨hquantity, haverage, hcommission, htime, signalTime, hsignalTime⟩ := h.lot lot held
    have hlot : 0 < state.quantity := hquantity ▸ hpositive lot held
    have hdelta : |fill.quantity - state.quantity| = 0 :=
      abs_eq_zero.mpr (sub_eq_zero.mpr (hquantity ▸ whole))
    have htolerance : ¬(0 : Decimal) > qtyTolerance := by decide +kernel
    rw [hturn, Funnel.sell, if_neg hlot.not_ge, Book.deal_sale isSell held]
    simp only [hsignalTime, htime, hdelta, if_neg htolerance]
    refine ⟨_, rfl, fun _ => rfl, fun next hnone => (by cases hnone), ?_⟩
    rw [List.map_append, List.map_append, h.trips]
    simp only [List.map_cons, List.map_nil, Lot.close, hquantity, haverage, hcommission]
    rfl

/-! ### The trades of a run -/

def ClosedTrade.Matches (trade : ClosedTrade) : TradeEntry → Prop
  | .opened .. => False
  | .closed _ _ entryPrice _ quantity pnl _ entryTime exitTime =>
    trade.pnl = pnl ∧ trade.entryTime = entryTime ∧ trade.exitTime = exitTime ∧
      trade.quantity = quantity ∧ trade.entryPrice = entryPrice

def ReconstructedTrade.Matches (record : ReconstructedTrade) : TradeEntry → Prop
  | .opened .. => False
  | .closed _ _ _ _ _ pnl _ entryTime exitTime =>
    record.pnl = pnl ∧ record.entryFillTime = entryTime ∧ record.exitTime = exitTime

/-- Both reports reconstruct the trades that the portfolio has closed. -/
structure ReconstructionsAgree (result : BacktestResult) (trades : List ClosedTrade)
    (records : List ReconstructedTrade) : Prop where
  attribution : reconstructClosedTrades (auditRows result) = .ok trades
  funnel : reconstructTrades result = .ok records
  trades_length : trades.length = result.totalTrades
  records_length : records.length = result.totalTrades
  trades_match : List.Forall₂ ClosedTrade.Matches trades
    (result.portfolio.tradeHistory.filter TradeEntry.isClose)
  records_match : List.Forall₂ ReconstructedTrade.Matches records
    (result.portfolio.tradeHistory.filter TradeEntry.isClose)
  trades_pnl : (trades.map ClosedTrade.pnl).sum = result.totalPnl
  records_pnl : (records.map ReconstructedTrade.pnl).sum = result.totalPnl

/-- What is read off both lists relates their items, where it can be read at all. -/
theorem forall₂_of_map_eq_filterMap {α β γ : Type} {f : α → γ} {g : β → Option γ}
    {R : α → β → Prop} (hR : ∀ a b, g b = some (f a) → R a b) {first : List α} {second : List β}
    (h : first.map f = second.filterMap g) :
    List.Forall₂ R first (second.filter fun b => (g b).isSome) := by
  induction second generalizing first with
  | nil =>
    rw [List.map_eq_nil_iff.mp h]
    exact .nil
  | cons b second ih =>
    cases hb : g b with
    | none =>
      rw [List.filterMap_cons_none hb] at h
      rw [List.filter_cons_of_neg (by simp [hb])]
      exact ih h
    | some c =>
      rw [List.filterMap_cons_some hb] at h
      rw [List.filter_cons_of_pos (by simp [hb])]
      obtain ⟨a, rest, rfl, rfl, hrest⟩ := List.map_eq_cons_iff.mp h
      exact .cons (hR a b hb) (ih hrest)

theorem map_eq_of_forall₂ {α β γ : Type} {f : α → γ} {g : β → γ} {R : α → β → Prop}
    (hR : ∀ a b, R a b → f a = g b) {first : List α} {second : List β}
    (h : List.Forall₂ R first second) : first.map f = second.map g := by
  induction h with
  | nil => rfl
  | cons hab _ ih => rw [List.map_cons, List.map_cons, hR _ _ hab, ih]

theorem filter_isSome_trip? (history : List TradeEntry) :
    (history.filter fun entry => entry.trip?.isSome) = history.filter TradeEntry.isClose :=
  List.filter_congr fun entry _ => by cases entry <;> rfl

theorem ClosedTrade.Matches.pnl (trade : ClosedTrade) (entry : TradeEntry)
    (h : trade.Matches entry) : trade.pnl = entry.pnl := by
  cases entry with
  | opened => cases h
  | closed => exact h.1

theorem ReconstructedTrade.Matches.pnl (record : ReconstructedTrade) (entry : TradeEntry)
    (h : record.Matches entry) : record.pnl = entry.pnl := by
  cases entry with
  | opened => cases h
  | closed => exact h.1

theorem closedTrades_match {trades : List ClosedTrade} {history : List TradeEntry}
    (h : trades.map ClosedTrade.trip = history.filterMap TradeEntry.trip?) :
    List.Forall₂ ClosedTrade.Matches trades (history.filter TradeEntry.isClose) := by
  rw [← filter_isSome_trip?]
  refine forall₂_of_map_eq_filterMap (fun trade entry htrip => ?_) h
  cases entry with
  | opened => cases htrip
  | closed => cases htrip; exact ⟨rfl, rfl, rfl, rfl, rfl⟩

theorem records_match {records : List ReconstructedTrade} {history : List TradeEntry}
    (h : records.map (fun record => (record.pnl, record.entryFillTime, record.exitTime)) =
      (history.filterMap TradeEntry.trip?).map fun trip =>
        (trip.pnl, trip.openedAt, trip.closedAt)) :
    List.Forall₂ ReconstructedTrade.Matches records (history.filter TradeEntry.isClose) := by
  rw [List.map_filterMap] at h
  have hmatch := forall₂_of_map_eq_filterMap (R := ReconstructedTrade.Matches)
    (fun record entry htrip => ?_) h
  · simpa only [Option.isSome_map, filter_isSome_trip?] using hmatch
  · cases entry with
    | opened => cases htrip
    | closed => cases htrip; exact ⟨rfl, rfl, rfl⟩

section Reports

variable {engine : BacktestEngine} {symbol : String}

theorem attribution_keeps (hlogged : engine.Logged) (hbooked : engine.Booked symbol) :
    ∃ state : Attribution, (auditRows engine.calculateResults).foldlM Attribution.row {} = .ok state ∧
      state.Keeps (engine.portfolio.book symbol) := by
  rw [← hbooked.book, auditRows, List.foldlM_filterMap]
  refine Book.simulates ?_ ⟨rfl, rfl⟩ Book.positive_empty hbooked.admits
  intro state book fill hfill hkeeps hpositive hadmits
  obtain ⟨order, horder, hid⟩ := hlogged.order_of_fill hfill
  obtain ⟨found, hfound⟩ : ∃ found, (engine.orders.find? fun order =>
      order.orderId = fill.orderId) = some found := by
    rw [← Option.isSome_iff_exists, List.find?_isSome]
    exact ⟨order, horder, decide_eq_true hid⟩
  have hrow : ((engine.calculateResults.orders.find? fun order => order.orderId = fill.orderId).map
      (auditRow fill)) = some (auditRow fill found) := congrArg (Option.map (auditRow fill)) hfound
  simp only [hrow]
  exact hkeeps.row hpositive found hadmits

theorem funnel_keeps (hlogged : engine.Logged) (hbooked : engine.Booked symbol) :
    ∃ state : Funnel, engine.fills.foldlM
        (Funnel.fill (.ofItems Order.orderId Order.signal engine.orders)) {} = .ok state ∧
      state.Keeps (engine.portfolio.book symbol) := by
  rw [← hbooked.book]
  refine Book.simulates ?_ ⟨fun _ => rfl, fun lot h => (by cases h), rfl⟩ Book.positive_empty
    hbooked.admits
  intro state book fill hfill hkeeps hpositive hadmits
  obtain ⟨order, horder, hid⟩ := hlogged.order_of_fill hfill
  have hsignal : (Dict.ofItems Order.orderId Order.signal engine.orders).get? fill.orderId =
      some order.signal := by
    rw [← hid]
    exact Dict.get?_foldl_set_of_mem _ _ hlogged.orderIds_nodup horder _
  exact hkeeps.fill hpositive hsignal hadmits

theorem reconstructions_agree_of_booked (hlogged : engine.Logged) (hbooked : engine.Booked symbol)
    (hclosed : engine.portfolio.getPosition symbol = none) :
    ∃ trades records, ReconstructionsAgree engine.calculateResults trades records := by
  obtain ⟨attribution, hattribution, hposition, htrips⟩ := attribution_keeps hlogged hbooked
  obtain ⟨funnel, hfunnel, hflat, -, hrecords⟩ := funnel_keeps hlogged hbooked
  have hlot : (engine.portfolio.book symbol).lot = none := by
    rw [Portfolio.book, hclosed]
    rfl
  rw [hlot, Option.map_eq_none_iff] at hposition
  have htrades := closedTrades_match htrips
  have hrecords := records_match hrecords
  have htradesPnl : (attribution.trades.map ClosedTrade.pnl).sum =
      engine.calculateResults.totalPnl := by
    rw [map_eq_of_forall₂ (g := TradeEntry.pnl) ClosedTrade.Matches.pnl htrades]
    rfl
  have hrecordsPnl : (funnel.records.map ReconstructedTrade.pnl).sum =
      engine.calculateResults.totalPnl := by
    rw [map_eq_of_forall₂ (g := TradeEntry.pnl) ReconstructedTrade.Matches.pnl hrecords]
    rfl
  have htolerance : ¬(0 : Decimal) > pnlTolerance := by decide +kernel
  refine ⟨attribution.trades, funnel.records, ?_, ?_, htrades.length_eq, hrecords.length_eq,
    htrades, hrecords, htradesPnl, hrecordsPnl⟩
  · rw [reconstructClosedTrades, hattribution]
    simp [hposition, bind, Except.bind]
  · have hfills : engine.calculateResults.fills.foldlM (Funnel.fill
        (.ofItems Order.orderId Order.signal engine.calculateResults.orders)) {} = .ok funnel :=
      hfunnel
    have hcount : funnel.records.length = engine.calculateResults.totalTrades :=
      hrecords.length_eq
    rw [reconstructTrades, hfills]
    simp [hflat hlot, hcount, hrecordsPnl, htolerance, bind, Except.bind]

end Reports

/-- Both reports reconstruct the trades of a run of one symbol that sells its positions whole and
leaves none open. -/
theorem reconstructions_agree {σ ι : Type} (run : BacktestRun σ ι) (config : BacktestConfig)
    (riskEngine : RiskEngine) (draws : ℕ → Decimal) (result : BacktestResult)
    (trace : List EngineEvent)
    (h : (run.result (.new config riskEngine draws)).Returns result trace)
    (symbol : String) (hsymbol : ∀ fill ∈ result.fills, fill.symbol = symbol)
    (hwhole : ∀ before event after,
      Run.Makes (EngineStep run.clock) (.new config riskEngine draws) trace before event after →
        before.SellsWhole after)
    (hclosed : ∀ symbol, result.portfolio.getPosition symbol = none) :
    ∃ trades records, ReconstructionsAgree result trades records := by
  obtain ⟨engine, events, rest, hexecute, hpure, rfl⟩ := Traced.returns_bind_iff.mp h
  obtain ⟨rfl, rfl⟩ := Traced.returns_pure_iff.mp hpure
  rw [List.append_nil] at hwhole
  have hrun := run.execute_follows hexecute
  have hlogged : engine.Logged := hrun.invariant (P := fun _ engine => engine.Logged)
    (BacktestEngine.logged_new config riskEngine draws) fun _ _ _ _ hlogged hstep =>
      hlogged.step hstep
  have hbooked : (∀ fill ∈ engine.fills, fill.symbol = symbol) → engine.Booked symbol := by
    refine hrun.invariant_makes (P := fun engine =>
      (∀ fill ∈ engine.fills, fill.symbol = symbol) → engine.Booked symbol)
      (fun _ => ⟨trivial, rfl⟩) fun before event after hmakes ih hfills => ?_
    have hstep : EngineStep run.clock before event after := by
      obtain ⟨_, _, -, -, hstep⟩ := hmakes
      exact hstep
    have hbefore := ih fun fill hfill =>
      hfills fill ((BacktestEngine.Extends.step hstep).fills.subset hfill)
    exact hbefore.step hstep (hwhole before event after hmakes) hfills
  exact reconstructions_agree_of_booked hlogged (hbooked hsymbol) (hclosed symbol)

/-- Two purchases at different prices, and the liquidation. -/
def twoPurchases : BacktestRun Unit Unit :=
  { candles := [flatCandle "BTCUSDT" 0 100, flatCandle "BTCUSDT" hour 110,
      flatCandle "BTCUSDT" (2 * hour) 130]
    strategy := .legacy fun state candle _ => .ok (state, if candle.openTime ≤ hour then
      some [.mapping (some "buy") none none (some 1) none none none none none none] else none)
    initialState := (), clock := fun _ => 0, runId := "" }

/-- `reconstructions_agree` for that run, which makes one trade. -/
theorem twoPurchases_agree : ∃ (result : BacktestResult) (trades : List ClosedTrade)
    (records : List ReconstructedTrade), ReconstructionsAgree result trades records ∧
      result.fills.length = 3 ∧ result.totalTrades = 1 := by
  obtain ⟨result, hresult, hchecks⟩ := (Option.any_eq_true _ _).mp
    (show (twoPurchases.result (.new {} {} fun _ => 0)).value?.any (fun result =>
      decide (result.fills.length = 3 ∧ result.totalTrades = 1 ∧
        (∀ fill ∈ result.fills, fill.symbol = "BTCUSDT") ∧
        result.portfolio.positions.keys = [])) = true by decide +kernel)
  obtain ⟨hlength, htotal, hsymbol, hkeys⟩ := of_decide_eq_true hchecks
  have hwhole := makes_of_checks
    (show checks twoPurchases.clock (fun before after => decide (before.SellsWhole after))
      (.new {} {} fun _ => 0) (twoPurchases.result (.new {} {} fun _ => 0)).trace = true by
        decide +kernel)
  obtain ⟨trades, records, hagree⟩ := reconstructions_agree twoPurchases {} {} _ result _
    (Traced.returns_of_value? hresult) "BTCUSDT" hsymbol
    (fun before event after hmakes => of_decide_eq_true (hwhole before event after hmakes))
    fun symbol => by
      rw [Portfolio.getPosition, Dict.eq_empty_of_keys hkeys]
      rfl
  exact ⟨result, trades, records, hagree, hlength, htotal⟩

end CryptoTrading
