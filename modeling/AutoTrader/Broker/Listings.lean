/-
  AutoTrader/Broker/Listings.lean
  ===============================
  **The listings of the broker: the orders of a day and the account.**

  Both clients read a listing page by page.  A page goes on when its header says so and
  it carries a cursor, and the next request is made from that cursor.  The two loops are
  written apart: the one over the orders looks only at the cursor it just used, the one
  over the account keeps all of them.  Both are runs of one reader of pages, so what they
  return is a whole listing (`listings_complete`).
-/
import AutoTrader.Broker.KisErrors
import AutoTrader.Lib.Paging
import AutoTrader.Pipeline.OrderStatus

namespace AutoTrader

/-! ### Contexts -/

/-- `KisPaginationContext`. -/
structure KisPaginationContext where
  trCont : String
  ctxAreaFk100 : String
  ctxAreaNk100 : String
deriving DecidableEq

namespace KisPaginationContext

def hasNext (context : KisPaginationContext) : Bool :=
  ["M", "F"].contains context.trCont && (context.ctxAreaFk100 != "" || context.ctxAreaNk100 != "")

def nextRequest (context : KisPaginationContext) : KisPaginationContext :=
  ⟨"N", context.ctxAreaFk100, context.ctxAreaNk100⟩

end KisPaginationContext

/-- `KisAccountPagination`. -/
structure KisAccountPagination where
  trCont : String
  ctxAreaFk100 : String
  ctxAreaNk100 : String
deriving DecidableEq

namespace KisAccountPagination

/-- Only "m" and "f" become "M" and "F" in upper case. -/
def hasNext (pagination : KisAccountPagination) : Bool :=
  ["M", "F", "m", "f"].contains pagination.trCont &&
    (pagination.ctxAreaFk100 != "" || pagination.ctxAreaNk100 != "")

/-- The `marker` of the loop. -/
def marker (pagination : KisAccountPagination) : String × String :=
  (pagination.ctxAreaFk100, pagination.ctxAreaNk100)

end KisAccountPagination

/-! ### Answers -/

/-- `_header`; the headers of a response are found whatever the case of the name. -/
def header (response : KisResponse) (name : String) : String :=
  ((response.headers.find? fun entry => entry.1.toList.map Char.toLower = name.toList.map Char.toLower).map
    (·.2)).getD ""

/-- `value not in (None, "")`. -/
def present : Json → Bool
  | .null => false
  | .text s => s != ""
  | _ => true

/-- `_first` of a mapping. -/
def firstField (fields : List (String × Json)) (names : List String) : Option Json :=
  names.findSome? fun name => (Json.field? fields name).filter present

/-- `payload.get(name) or payload.get(NAME) or ...`. -/
def firstTruthy (fields : List (String × Json)) (names : List String) : Option Json :=
  names.findSome? fun name => (Json.field? fields name).filter Json.truthy

/-- `str(value or "")`. -/
def strOrEmpty (json : JsonModule) (value : Option Json) : Except Exn String :=
  match value.filter Json.truthy with
  | none => .ok ""
  | some value => json.str value

/-- `payload.get(name)` where only a list counts. -/
def listField (payload : List (String × Json)) (name : String) : List Json :=
  match Json.field? payload name with
  | some (.list rows) => rows
  | _ => []

/-- The parsed rows, without those that are ignored. -/
def parseRows {α β : Type} (parse : α → Except Exn (Option β)) : List α → Except Exn (List β)
  | [] => .ok []
  | row :: rest => do
    let parsed ← parse row
    let others ← parseRows parse rest
    pure (parsed.toList ++ others)

/-! ### What both clients check -/

/-- The credentials and the account of a client. -/
structure KisCredentials where
  appKey : String
  appSecret : String
  accessToken : String
  accountNo : String
  accountProductCode : String

/-- The credentials that no error shows. -/
def KisCredentials.secrets (credentials : KisCredentials) : List String :=
  [credentials.appKey, credentials.appSecret, credentials.accessToken, credentials.accountNo]

/-- `_validate_account` of the order-status client. -/
def validateAccount (credentials : KisCredentials) : Except Exn Unit :=
  if Text.isdigit credentials.accountNo = false ∨ credentials.accountNo.length ≠ 8 then
    .error (.valueError "KIS account_no must be exactly eight digits")
  else if Text.isdigit credentials.accountProductCode = false ∨ credentials.accountProductCode.length ≠ 2 then
    .error (.valueError "KIS account_product_code must be exactly two digits")
  else .ok ()

/-! ### The orders of a day -/

/-- The arguments of `get_orders`. -/
structure DailyOrderQuery where
  inquiryDate : Option String
  unfilledOnly : Bool
  pdDv : String
  exchangeId : String

/-- What the session is asked for: the parameters of one page. -/
structure DailyOrderRequest where
  inquiryDate : String
  unfilledOnly : Bool
  pdDv : String
  exchangeId : String
  context : KisPaginationContext

/-- `KisOrderStatusPage`. -/
structure KisOrderStatusPage where
  orders : List OrderRecord
  pagination : KisPaginationContext
deriving DecidableEq

/-- The checks of the arguments, once for each page. -/
def dailyOrderRequest (today : String) (query : DailyOrderQuery) (context : Option KisPaginationContext) :
    Except Exn DailyOrderRequest :=
  let inquiryDate := (query.inquiryDate.filter (· ≠ "")).getD today
  if Text.isdigit inquiryDate = false ∨ inquiryDate.length ≠ 8 then
    .error (.valueError "inquiry_date must be YYYYMMDD")
  else if query.pdDv ≠ "inner" ∧ query.pdDv ≠ "before" then
    .error (.valueError "pd_dv must be 'inner' or 'before'")
  else .ok ⟨inquiryDate, query.unfilledOnly, query.pdDv, query.exchangeId, context.getD ⟨"", "", ""⟩⟩

/-- A row of the payload; `str` of a parsed value does not raise. -/
def statusRow (json : JsonModule) (fields : List (String × Json)) : StatusRow := fun name =>
  match Json.field? fields name with
  | none | some .null => none
  | some value => (json.str value).toOption

/-- `parse_order_status` of an item of `output1`. -/
def parseOrderRow (json : JsonModule) : Json → Except Exn (Option OrderRecord)
  | .dict fields => parseOrderStatus (statusRow json fields)
  | _ => .ok none

/-- The context that a payload and its header state. -/
def orderStatusContext (json : JsonModule) (response : KisResponse) (payload : List (String × Json)) :
    Except Exn KisPaginationContext := do
  let fk ← strOrEmpty json (firstField payload ["ctx_area_fk100", "CTX_AREA_FK100"])
  let nk ← strOrEmpty json (firstField payload ["ctx_area_nk100", "CTX_AREA_NK100"])
  pure ⟨header response "tr_cont", fk, nk⟩

/-- `KisOrderStatusClient.get_orders_page`, by what the session answers to its request. -/
def getOrdersPage (json : JsonModule) (credentials : KisCredentials) (today : String) (query : DailyOrderQuery)
    (get : DailyOrderRequest → Except Exn KisResponse) (context : Option KisPaginationContext) :
    Except Exn KisOrderStatusPage := do
  validateAccount credentials
  let request ← dailyOrderRequest today query context
  let response ← get request
  let payload ← orderStatusPayload json response credentials.secrets
  let orders ← parseRows (parseOrderRow json) (listField payload "output1")
  let pagination ← orderStatusContext json response payload
  pure ⟨if query.unfilledOnly then orders.filter fun order => 0 < order.remainingQuantity else orders, pagination⟩

/-- The loop of `get_orders`, by the pages it may still ask for. -/
def getOrdersLoop (page : Nat → Option KisPaginationContext → Except Exn KisOrderStatusPage) :
    Nat → Nat → Option KisPaginationContext → List OrderRecord → Except Exn (List OrderRecord)
  | 0, _, _, _ => .error (.other "RuntimeError" "KIS order status pagination exceeded max_pages")
  | left + 1, n, context, result => do
    let answer ← page n context
    let result' := result ++ answer.orders
    if answer.pagination.hasNext = false then pure result'
    else if some answer.pagination.nextRequest = context then
      .error (.other "RuntimeError" "KIS pagination did not advance")
    else getOrdersLoop page left (n + 1) (some answer.pagination.nextRequest) result'

/-- The `n`-th page: the day is read again for each, and the session answers each request. -/
def ordersPage (json : JsonModule) (credentials : KisCredentials) (today : Nat → String) (query : DailyOrderQuery)
    (session : Nat → DailyOrderRequest → Except Exn KisResponse) (n : Nat)
    (context : Option KisPaginationContext) : Except Exn KisOrderStatusPage :=
  getOrdersPage json credentials (today n) query (session n) context

/-- `KisOrderStatusClient.get_orders`. -/
def getOrders (json : JsonModule) (credentials : KisCredentials) (today : Nat → String) (query : DailyOrderQuery)
    (session : Nat → DailyOrderRequest → Except Exn KisResponse) (maxPages : Int) :
    Except Exn (List OrderRecord) :=
  if maxPages ≤ 0 then .error (.valueError "max_pages must be positive")
  else getOrdersLoop (ordersPage json credentials today query session) maxPages.toNat 0 none []

/-! ### The account -/

/-- `KisAccountPosition`. -/
structure KisAccountPosition where
  symbol : String
  qty : Int
  sellableQty : Option Int
  avgPrice : Option PyFloat
  currentPrice : Option PyFloat
  evaluationPnl : Option PyFloat
  evaluationAmount : Option PyFloat
  name : String
deriving DecidableEq

/-- `KisAccountSummary`. -/
structure KisAccountSummary where
  deposit : Option PyFloat
  orderableCashEstimate : Option PyFloat
  totalEvaluation : Option PyFloat
  evaluationPnl : Option PyFloat
deriving DecidableEq

/-- `KisAccountPage`. -/
structure KisAccountPage where
  positions : List KisAccountPosition
  summary : KisAccountSummary
  pagination : KisAccountPagination

/-- `KisAccountSnapshot`. -/
structure KisAccountSnapshot where
  positions : List KisAccountPosition
  summary : KisAccountSummary
deriving DecidableEq

/-- `_text` of the account. -/
def accountText (json : JsonModule) (value : Option Json) : Except Exn (Option String) :=
  match value with
  | none => .ok none
  | some value => (json.str value).map fun s => (some (Text.strip s)).filter (· ≠ "")

/-- `_int_value` of the account. -/
def accountInt (json : JsonModule) (value : Option Json) : Except Exn (Option Int) :=
  match value with
  | none => .ok none
  | some value => do
    match numberText (← json.str value) with
    | some (.fin q) => pure (some (q.num.tdiv q.den))
    | some .posInf | some .negInf =>
      .error (.other "OverflowError" "cannot convert float infinity to integer")
    | some .nan | none => pure none

/-- `_float_value` of the account: a NaN counts as missing. -/
def accountFloat (json : JsonModule) (value : Option Json) : Except Exn (Option PyFloat) :=
  match value with
  | none => .ok none
  | some value => (json.str value).map fun s => (numberText s).filter (· ≠ .nan)

/-- The name of a symbol, as a valid one. -/
def accountSymbol (symbol : Option String) : Option String :=
  symbol.filter fun symbol => Text.isdigit symbol ∧ symbol.length = 6

/-- A price below zero counts as missing. -/
def notNegative (price : Option PyFloat) : Option PyFloat := price.filter fun price => !PyFloat.lt price (.fin 0)

/-- The other fields of a position whose symbol and quantity were read. -/
def parsePosition (json : JsonModule) (row : List (String × Json)) (symbol : String) (qty : Int) :
    Except Exn KisAccountPosition := do
  let sellableQty ← accountInt json
    (firstField row ["ord_psbl_qty", "ORD_PSBL_QTY", "sellable_qty", "sellable_quantity"])
  let avgPrice ← accountFloat json (firstField row ["pchs_avg_pric", "PCHS_AVG_PRIC", "avg_price"])
  let currentPrice ← accountFloat json (firstField row ["prpr", "PRPR", "current_price"])
  let evaluationPnl ← accountFloat json (firstField row ["evlu_pfls_amt", "EVLU_PFLS_AMT", "evaluation_pnl"])
  let evaluationAmount ← accountFloat json (firstField row ["evlu_amt", "EVLU_AMT", "evaluation_amount"])
  let name ← strOrEmpty json (firstField row ["prdt_name", "PRDT_NAME", "name"])
  pure {
    symbol := symbol
    qty := qty
    sellableQty := sellableQty.filter (0 ≤ ·)
    avgPrice := notNegative avgPrice
    currentPrice := notNegative currentPrice
    evaluationPnl := evaluationPnl
    evaluationAmount := evaluationAmount
    name := name }

/-- `parse_account_position`. -/
def parseAccountPosition (json : JsonModule) (row : List (String × Json)) :
    Except Exn (Option KisAccountPosition) := do
  let symbol ← accountText json (firstField row ["pdno", "PDNO", "symbol", "SYMBOL"])
  let qty ← accountInt json (firstField row ["hldg_qty", "HLDG_QTY", "qty", "quantity"])
  match accountSymbol symbol, qty.filter (0 < ·) with
  | some symbol, some qty => (parsePosition json row symbol qty).map some
  | _, _ => pure none

/-- `parse_account_summary`. -/
def parseAccountSummary (json : JsonModule) (row : List (String × Json)) : Except Exn KisAccountSummary := do
  let deposit ← accountFloat json (firstField row ["dnca_tot_amt", "DNCA_TOT_AMT", "deposit"])
  let orderableCash ← accountFloat json
    (firstField row ["ord_psbl_cash", "ORD_PSBL_CASH", "ord_psbl_amt", "ORD_PSBL_AMT", "orderable_cash"])
  let totalEvaluation ← accountFloat json
    (firstField row ["tot_evlu_amt", "TOT_EVLU_AMT", "evlu_amt_smtl", "total_evaluation"])
  let evaluationPnl ← accountFloat json
    (firstField row ["evlu_pfls_smtl_amt", "EVLU_PFLS_SMTL_AMT", "evaluation_pnl"])
  pure ⟨deposit, orderableCash, totalEvaluation, evaluationPnl⟩

/-- `_as_rows`. -/
def asRows : Option Json → List (List (String × Json))
  | some (.dict row) => [row]
  | some (.list rows) => rows.filterMap fun
    | .dict row => some row
    | _ => none
  | _ => []

/-- `_response_payload`. -/
def responsePayload (json : JsonModule) (response : KisResponse) (secrets : List String) :
    Except Exn (List (String × Json)) := do
  raiseForKisResponse json response secrets
  match response.json with
  | .error e =>
    if unreadable e then .error (.other "RuntimeError" "KIS account response was not valid JSON")
    else .error e
  | .ok (.dict payload) => do
    if (← fieldText json payload "rt_cd" "1") = "0" then .ok payload
    else .error (.other "RuntimeError" "KIS account request failed")
  | .ok _ => .error (.other "RuntimeError" "KIS account response was not an object")

/-- `_pagination`. -/
def accountPagination (json : JsonModule) (response : KisResponse) (payload : List (String × Json)) :
    Except Exn KisAccountPagination := do
  let fk ← strOrEmpty json (firstTruthy payload ["ctx_area_fk100", "CTX_AREA_FK100"])
  let nk ← strOrEmpty json (firstTruthy payload ["ctx_area_nk100", "CTX_AREA_NK100"])
  pure ⟨header response "tr_cont", fk, nk⟩

/-- `_validate_account` of the account client. -/
def validateAccountClient (credentials : KisCredentials) (maxPages : Int) : Except Exn Unit := do
  validateAccount credentials
  if maxPages ≤ 0 then .error (.valueError "max_pages must be positive") else .ok ()

/-- `KisAccountClient.get_page`, by what the session answers to the request for a cursor. -/
def getPage (json : JsonModule) (credentials : KisCredentials) (maxPages : Int)
    (get : KisAccountPagination → Except Exn KisResponse) (pagination : KisAccountPagination) :
    Except Exn KisAccountPage := do
  validateAccountClient credentials maxPages
  let response ← get pagination
  let payload ← responsePayload json response credentials.secrets
  let positions ← parseRows (parseAccountPosition json) (asRows (Json.field? payload "output1"))
  let summary ← parseAccountSummary json ((asRows (Json.field? payload "output2")).headD [])
  let next ← accountPagination json response payload
  pure ⟨positions, summary, next⟩

/-- The loop of `get_snapshot`. -/
def getSnapshotLoop (page : Nat → KisAccountPagination → Except Exn KisAccountPage) :
    Nat → Nat → KisAccountPagination → List (String × String) → List KisAccountPosition →
    Option KisAccountSummary → Except Exn KisAccountSnapshot
  | 0, _, _, _, _, _ => .error (.other "RuntimeError" "KIS account pagination exceeded max_pages")
  | left + 1, n, pagination, seen, positions, summary => do
    let answer ← page n pagination
    let positions' := positions ++ answer.positions
    let summary' := summary.getD answer.summary
    if answer.pagination.hasNext = false then pure ⟨positions', summary'⟩
    else if answer.pagination.marker ∈ seen then
      .error (.other "RuntimeError" "KIS account pagination cursor did not advance")
    else
      let seen' := answer.pagination.marker :: seen
      getSnapshotLoop page left (n + 1) answer.pagination seen' positions' (some summary')

/-- The `n`-th page of the account. -/
def accountPage (json : JsonModule) (credentials : KisCredentials) (maxPages : Int)
    (session : Nat → KisAccountPagination → Except Exn KisResponse) (n : Nat)
    (pagination : KisAccountPagination) : Except Exn KisAccountPage :=
  getPage json credentials maxPages (session n) pagination

/-- `KisAccountClient.get_snapshot` of a client made with `max_pages`. -/
def getSnapshot (json : JsonModule) (credentials : KisCredentials) (maxPages : Int)
    (session : Nat → KisAccountPagination → Except Exn KisResponse) : Except Exn KisAccountSnapshot :=
  let maxPages := min maxPages 10
  getSnapshotLoop (accountPage json credentials maxPages session) maxPages.toNat 0 ⟨"", "", ""⟩ [] [] none

/-! ### Both loops are readers of pages -/

theorem Except.ok_of_map {α β : Type} {x : Except Exn α} {f : α → β} {b : β} (h : x.map f = .ok b) :
    ∃ a, x = .ok a ∧ b = f a := by
  cases x with
  | error e => cases h
  | ok a =>
    cases h
    exact ⟨a, rfl, rfl⟩

/-- The request after a page of orders. -/
def KisOrderStatusPage.cursor (page : KisOrderStatusPage) : KisPaginationContext := page.pagination.nextRequest

/-- The summary that a snapshot of some pages shows. -/
def shownSummary (pages : List KisAccountPage) : KisAccountSummary :=
  (pages.head?.map (·.summary)).getD ⟨none, none, none, none⟩

theorem getOrdersLoop_eq (page : Nat → Option KisPaginationContext → Except Exn KisOrderStatusPage)
    (left n : Nat) (previous : Option KisOrderStatusPage) (result : List OrderRecord) :
    getOrdersLoop page left n (previous.map (·.cursor)) result =
      (Paging.readPages (fun n previous => page n (previous.map (·.cursor))) (·.pagination.hasNext)
        (Paging.checkLast KisOrderStatusPage.cursor (.other "RuntimeError" "KIS pagination did not advance"))
        (.other "RuntimeError" "KIS order status pagination exceeded max_pages") left n previous
        (previous.map (·.cursor))).map fun pages => result ++ pages.flatMap (·.orders) := by
  induction left generalizing n previous result with
  | zero => rfl
  | succ left ih =>
    rw [getOrdersLoop, Paging.readPages]
    cases hpage : page n (previous.map (·.cursor)) with
    | error e => rfl
    | ok answer =>
      simp only [Bind.bind, Except.bind]
      cases hnext : answer.pagination.hasNext with
      | false =>
        rw [if_pos rfl, if_neg Bool.false_ne_true]
        simp [Pure.pure, Except.pure, Except.map]
      | true =>
        rw [if_neg (by decide), if_pos rfl, Paging.checkLast]
        by_cases hsame : some answer.cursor = previous.map (·.cursor)
        · have hsame' : some answer.pagination.nextRequest = previous.map (·.cursor) := hsame
          rw [if_pos hsame', if_pos hsame.symm]
          rfl
        · have hsame' : some answer.pagination.nextRequest ≠ previous.map (·.cursor) := hsame
          have hrest := ih (n + 1) (some answer) (result ++ answer.orders)
          rw [if_neg hsame', if_neg (Ne.symm hsame)]
          rw [Option.map_some] at hrest
          refine hrest.trans ?_
          dsimp only
          cases Paging.readPages _ _ _ _ left (n + 1) (some answer) (some answer.cursor) with
          | error e => rfl
          | ok rest => simp [Pure.pure, Except.pure, Except.map]

theorem getSnapshotLoop_eq (page : Nat → KisAccountPagination → Except Exn KisAccountPage)
    (left n : Nat) (previous : Option KisAccountPage) (seen : List (String × String))
    (positions : List KisAccountPosition) (summary : Option KisAccountSummary) :
    getSnapshotLoop page left n (previous.elim ⟨"", "", ""⟩ (·.pagination)) seen positions summary =
      (Paging.readPages (fun n previous => page n (previous.elim ⟨"", "", ""⟩ (·.pagination)))
        (·.pagination.hasNext)
        (Paging.checkUsed (·.pagination.marker)
          (.other "RuntimeError" "KIS account pagination cursor did not advance"))
        (.other "RuntimeError" "KIS account pagination exceeded max_pages") left n previous seen).map
        fun pages => ⟨positions ++ pages.flatMap (·.positions), summary.getD (shownSummary pages)⟩ := by
  induction left generalizing n previous seen positions summary with
  | zero => rfl
  | succ left ih =>
    rw [getSnapshotLoop, Paging.readPages]
    cases hpage : page n (previous.elim ⟨"", "", ""⟩ (·.pagination)) with
    | error e => rfl
    | ok answer =>
      simp only [Bind.bind, Except.bind]
      cases hnext : answer.pagination.hasNext with
      | false =>
        rw [if_pos rfl, if_neg Bool.false_ne_true]
        simp [Pure.pure, Except.pure, Except.map, shownSummary]
      | true =>
        rw [if_neg (by decide), if_pos rfl, Paging.checkUsed]
        by_cases hused : answer.pagination.marker ∈ seen
        · rw [if_pos hused, if_pos hused]
          rfl
        · rw [if_neg hused, if_neg hused]
          refine (ih (n + 1) (some answer) (answer.pagination.marker :: seen) (positions ++ answer.positions)
            (some (summary.getD answer.summary))).trans ?_
          dsimp only
          cases Paging.readPages _ _ _ _ left (n + 1) (some answer) (answer.pagination.marker :: seen) with
          | error e => rfl
          | ok rest => simp [Pure.pure, Except.pure, Except.map, shownSummary]

/-! ### What they return is a whole listing -/

/-- The page of orders after a page, by the request made from it. -/
def nextOrdersPage (json : JsonModule) (credentials : KisCredentials) (today : Nat → String)
    (query : DailyOrderQuery) (session : Nat → DailyOrderRequest → Except Exn KisResponse) (n : Nat)
    (previous : Option KisOrderStatusPage) : Except Exn KisOrderStatusPage :=
  ordersPage json credentials today query session n (previous.map (·.cursor))

/-- The page of the account after a page. -/
def nextAccountPage (json : JsonModule) (credentials : KisCredentials) (maxPages : Int)
    (session : Nat → KisAccountPagination → Except Exn KisResponse) (n : Nat) (previous : Option KisAccountPage) :
    Except Exn KisAccountPage :=
  accountPage json credentials maxPages session n (previous.elim ⟨"", "", ""⟩ (·.pagination))

/-- What `get_orders` returns are the orders of the pages of a whole listing. -/
theorem getOrders_whole {json : JsonModule} {credentials : KisCredentials} {today : Nat → String}
    {query : DailyOrderQuery} {session : Nat → DailyOrderRequest → Except Exn KisResponse} {maxPages : Int}
    {orders : List OrderRecord} (h : getOrders json credentials today query session maxPages = .ok orders) :
    ∃ pages, Paging.Whole (nextOrdersPage json credentials today query session) (·.pagination.hasNext) pages ∧
      orders = pages.flatMap (·.orders) ∧ (pages.dropLast.map (·.cursor)).IsChain (· ≠ ·) := by
  rw [getOrders] at h
  split at h
  · cases h
  · have hloop := getOrdersLoop_eq (ordersPage json credentials today query session) maxPages.toNat 0 none []
    rw [Option.map_none, h] at hloop
    obtain ⟨pages, hpages, horders⟩ := Except.ok_of_map hloop.symm
    obtain ⟨final, hchecked⟩ := Paging.checked_of_readPages hpages
    exact ⟨pages, (Paging.complete_of_readPages hpages).whole, horders,
      (Paging.isChain_of_checkLast hchecked).1⟩

/-- What `get_snapshot` returns are the positions of the pages of a whole listing, and the summary
    of the first. -/
theorem getSnapshot_whole {json : JsonModule} {credentials : KisCredentials} {maxPages : Int}
    {session : Nat → KisAccountPagination → Except Exn KisResponse} {snapshot : KisAccountSnapshot}
    (h : getSnapshot json credentials maxPages session = .ok snapshot) :
    ∃ pages, Paging.Whole (nextAccountPage json credentials (min maxPages 10) session) (·.pagination.hasNext) pages ∧
      snapshot.positions = pages.flatMap (·.positions) ∧ pages.head?.map (·.summary) = some snapshot.summary ∧
      (pages.dropLast.map (·.pagination.marker)).Nodup := by
  have hloop := getSnapshotLoop_eq (accountPage json credentials (min maxPages 10) session)
    (min maxPages 10).toNat 0 none [] [] none
  rw [getSnapshot] at h
  rw [Option.elim_none, h] at hloop
  obtain ⟨pages, hpages, hsnapshot⟩ := Except.ok_of_map hloop.symm
  obtain ⟨final, hchecked⟩ := Paging.checked_of_readPages hpages
  have hwhole := (Paging.complete_of_readPages hpages).whole
  refine ⟨pages, hwhole, ?_, ?_, (Paging.nodup_of_checkUsed hchecked).1⟩
  · rw [hsnapshot]
    rfl
  · obtain ⟨page, rest, rfl⟩ := List.exists_cons_of_ne_nil hwhole.nonempty
    rw [hsnapshot]
    rfl

/-- **No listing is cut short.**  What either client returns are the parsed rows of all pages of a
    whole listing, in order: each page is the answer to the request made from the page before it,
    all pages but the last announce another one with a cursor, and the last does not.  No
    cursor of the account is used twice, and none of the orders twice in a row. -/
theorem listings_complete (json : JsonModule) (credentials : KisCredentials) (maxPages : Int) :
    (∀ (today : Nat → String) (query : DailyOrderQuery)
        (session : Nat → DailyOrderRequest → Except Exn KisResponse) (orders : List OrderRecord),
      getOrders json credentials today query session maxPages = .ok orders →
      ∃ pages, Paging.Whole (nextOrdersPage json credentials today query session) (·.pagination.hasNext) pages ∧
        orders = pages.flatMap (·.orders) ∧ (pages.dropLast.map (·.cursor)).IsChain (· ≠ ·)) ∧
    (∀ (session : Nat → KisAccountPagination → Except Exn KisResponse) (snapshot : KisAccountSnapshot),
      getSnapshot json credentials maxPages session = .ok snapshot →
      ∃ pages, Paging.Whole (nextAccountPage json credentials (min maxPages 10) session)
          (·.pagination.hasNext) pages ∧
        snapshot.positions = pages.flatMap (·.positions) ∧
        pages.head?.map (·.summary) = some snapshot.summary ∧
        (pages.dropLast.map (·.pagination.marker)).Nodup) :=
  ⟨fun _ _ _ _ h => getOrders_whole h, fun _ _ h => getSnapshot_whole h⟩

/-! ### Two pages, and a page without a cursor -/

namespace PagedListing

def json : JsonModule where
  loads _ := .error (.other "JSONDecodeError" "Expecting value")
  dumps _ := .error (.typeError "not serializable")
  str
    | .text s => .ok s
    | .int n => .ok (toString n)
    | _ => .error (.typeError "not shown")

def credentials : KisCredentials := ⟨"app-key", "app-secret", "access-token", "12345678", "01"⟩

def query : DailyOrderQuery := ⟨some "20260102", false, "inner", "KRX"⟩

/-- An answer with one order, or one position, in which `fk` is the cursor. -/
def answer (number trCont fk : String) : KisResponse where
  statusCode := 200
  json := .ok (.dict [("rt_cd", .text "0"),
    ("output1", .list [.dict [("odno", .text number), ("pdno", .text "005930"), ("ord_qty", .text "2"),
      ("hldg_qty", .text "2")]]),
    ("ctx_area_fk100", .text fk)])
  headers := [("Tr_Cont", trCont)]

/-- Two pages, the second asked for by the cursor of the first. -/
def session (cursor : String) : Except Exn KisResponse :=
  if cursor = "" then .ok (answer "1" "M" "FK") else .ok (answer "2" "D" "")

/-- A page that announces another one and carries no cursor. -/
def endless (_ : String) : Except Exn KisResponse := .ok (answer "1" "M" "")

/-- What `get_orders` returns over a session. -/
def orders (session : String → Except Exn KisResponse) : Except Exn (List OrderRecord) :=
  getOrders json credentials (fun _ => "") query (fun _ request => session request.context.ctxAreaFk100) 10

/-- What `get_snapshot` returns over a session. -/
def snapshot (session : String → Except Exn KisResponse) : Except Exn KisAccountSnapshot :=
  getSnapshot json credentials 10 (fun _ pagination => session pagination.ctxAreaFk100)

/-- The order of the answer with a number. -/
def order (number : String) : OrderRecord where
  orderNumber := number
  symbol := "005930"
  side := none
  orderedQuantity := 2
  filledQuantity := 0
  remainingQuantity := 2
  orderPrice := none
  averageFillPrice := none
  status := .unfilled
  orderBranch := none

def position : KisAccountPosition := ⟨"005930", 2, none, none, none, none, none, ""⟩

theorem orders_read : orders session = .ok [order "1", order "2"] :=
  Except.eq_ok_of_toOption (by decide +kernel)

theorem snapshot_read : snapshot session = .ok ⟨[position, position], ⟨none, none, none, none⟩⟩ :=
  Except.eq_ok_of_toOption (by decide +kernel)

theorem two_pages_listed :
    (∃ pages, Paging.Whole (nextOrdersPage json credentials (fun _ => "") query
        fun _ request => session request.context.ctxAreaFk100) (·.pagination.hasNext) pages ∧
      [order "1", order "2"] = pages.flatMap (·.orders) ∧ (pages.dropLast.map (·.cursor)).IsChain (· ≠ ·)) ∧
    (∃ pages, Paging.Whole (nextAccountPage json credentials (min 10 10)
        fun _ pagination => session pagination.ctxAreaFk100) (·.pagination.hasNext) pages ∧
      [position, position] = pages.flatMap (·.positions) ∧
      pages.head?.map (·.summary) = some ⟨none, none, none, none⟩ ∧
      (pages.dropLast.map (·.pagination.marker)).Nodup) :=
  ⟨(listings_complete json credentials 10).1 _ _ _ _ orders_read,
    (listings_complete json credentials 10).2 _ _ snapshot_read⟩

/-- A page that announces another one and carries no cursor ends both listings. -/
theorem announced_page_not_read :
    header (answer "1" "M" "") "tr_cont" = "M" ∧ orders endless = .ok [order "1"] ∧
      snapshot endless = .ok ⟨[position], ⟨none, none, none, none⟩⟩ :=
  ⟨by decide +kernel, Except.eq_ok_of_toOption (by decide +kernel), Except.eq_ok_of_toOption (by decide +kernel)⟩

end PagedListing

end AutoTrader
