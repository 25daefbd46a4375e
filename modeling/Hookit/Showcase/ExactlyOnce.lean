import Hookit.Engine.Journal
import Hookit.Showcase.System

/-!
# Every trade is counted at most once, and exactly once if delivered

The invariant of the platform and Bank B joins three facts. A handler that has answered with a
success has processed the event of the POST it answers (`Inv.answered`); the POST that a
transaction waits for is of the event in the delivery's row (`Inv.awaits`); so a success in the
journal of a delivery to the bank is one of a processed event (`Inv.acknowledged`). With the
invariants of the two sides this is `counted_once`.
-/

namespace Hookit.Showcase

open Foundations

variable {π : Type} {S : Setup π}

/-- A lifecycle dossier whose success, if its delivery is one to the bank, is of an event that the
bank has processed. -/
def Acknowledged (S : Setup π) (bank : Bank.State) (d : DeliveryId) (D : Engine.Dossier) : Prop :=
  Engine.Lifecycle S.cfg d D ∧ ∀ n answer now, .answered n answer now ∈ D.history →
    answer.succeeded = true → D.row.endpointId = S.bankId →
    bank.processed.rows D.row.eventId = some ()

/-- The request is of the delivery's event, and goes to the bank's URL if the delivery does. -/
def Sends (S : Setup π) (r : Delivery) (request : Request π) : Prop :=
  request.eventId = r.eventId ∧ (r.endpointId = S.bankId → request.url = S.bankUrl)

/-- The invariant of the platform and the bank. -/
structure Inv (S : Setup π) (s : State π) : Prop where
  bank : Bank.Inv s.bank
  acknowledged : Engine.Inv (Acknowledged S s.bank) s.engine
  awaits : s.engine.Awaits (Sends S)
  payload : ∀ p ∈ s.engine.posts, p.request.payload = (S.events p.request.eventId).payload
  fresh : ∀ b, s.handlers b = none → s.bank.txs b = .unused
  running : ∀ b tx, s.bank.txs b = .running tx → ∃ handler, s.handlers b = some handler ∧
    handler.reception = .apply tx.eventId tx.trade
  committed : ∀ b e trade outcome, s.bank.txs b = .committed e trade outcome →
    S.parseTrade (S.events e).payload = .ok (some trade)
  apply : ∀ b handler e trade, s.handlers b = some handler → handler.reception = .apply e trade →
    S.parseTrade (S.events e).payload = .ok (some trade) ∧ ∃ post p, handler.post = some post ∧
      s.engine.posts[post]? = some p ∧ p.request.eventId = e
  declined : ∀ b handler status, s.handlers b = some handler →
    handler.reception = .answer status → ¬ Is2xx status
  answered : ∀ b handler status, s.handlers b = some handler → handler.answered = some status →
    Is2xx status → ∃ e trade, handler.reception = .apply e trade ∧
      s.bank.processed.rows e = some ()

section Moves

variable {s s' : State π}

theorem Inv.lifecycle (h : Inv S s) : Engine.Inv (Engine.Lifecycle S.cfg) s.engine :=
  h.acknowledged.mono fun _ _ hD => hD.1

/-- **A step of the engine**, where a success is one of a processed event. -/
theorem Inv.engine (h : Inv S s) {a : Engine.Act π} {engine : Engine.State π}
    (hmove : Engine.Move S.lib S.cfg a s.engine engine)
    (hsend : ∀ t endpoint event timestamp, a = .send t endpoint event timestamp →
      event = S.events event.id ∧ (endpoint.id = S.bankId → endpoint.url = S.bankUrl))
    (hanswer : ∀ t tx job d post r p answer durationMs now draw,
      a = .answer t answer durationMs now draw → s.engine.txs t = .running tx →
      tx.phase = .posting job d post → s.engine.posts[post]? = some p → Sends S r p.request →
      answer.succeeded = true → r.endpointId = S.bankId →
      s.bank.processed.rows r.eventId = some ()) :
    Inv S { s with engine } := by
  have hposts : ∀ {post : ℕ} {p : Engine.Post π}, s.engine.posts[post]? = some p →
      engine.posts[post]? = some p := by
    intro post p hp
    rcases Engine.posts_of_move h.lifecycle hmove with heq | ⟨_, _, _, _, _, -, heq, -⟩
    · rwa [heq]
    · rw [heq, List.getElem?_append_left (List.getElem?_eq_some_iff.1 hp).1]
      exact hp
  refine
    { h with
      acknowledged := ?acknowledged
      awaits := ?awaits
      payload := ?payload
      apply := fun b handler e trade hb hreception => ?apply }
  case acknowledged =>
    refine h.acknowledged.move hmove (fun t tx now ht hphase d e endpointId => ?_)
      fun d tr D D' hD hproduces hstep => ?_
    · refine ⟨.created e endpointId now, fun n answer now' hmem => ?_⟩
      cases List.mem_singleton.1 hmem
    · obtain ⟨hhist, hevent, hendpoint⟩ := hstep.spec
      refine ⟨hD.1.step hstep, fun n answer now hmem hsucc hbank => ?_⟩
      rw [hevent]
      rw [hendpoint] at hbank
      rw [hhist] at hmem
      rcases List.mem_append.1 hmem with hmem | hmem
      · exact hD.2 n answer now hmem hsucc hbank
      · obtain rfl := List.mem_singleton.1 hmem
        obtain ⟨-, -, t, tx, job, post, durationMs, draw, ha, ht, hphase, hheld⟩ := hproduces
        obtain ⟨r, p, hr, hp, hsends⟩ := h.awaits t tx job d post ht hphase
        rw [hheld] at hr
        obtain rfl := Option.some.inj (Prod.mk.inj (Option.some.inj hr)).2
        exact hanswer t tx job d post D.row p answer durationMs now draw ha ht hphase hp hsends hsucc
          hbank
  case awaits =>
    refine h.awaits.move h.lifecycle hmove
      fun t endpoint event timestamp r request ha hendpoint hevent hprepare => ?_
    obtain ⟨-, rfl⟩ := prepareDelivery_eq_some_iff.1 hprepare
    exact ⟨hevent, fun hbank => (hsend t endpoint event timestamp ha).2 (hendpoint.trans hbank)⟩
  case payload =>
    intro p hp
    rcases Engine.posts_of_move h.lifecycle hmove with
      heq | ⟨p', r, endpoint, event, timestamp, ha, heq, -, hprepare⟩
    · exact h.payload p (heq ▸ hp)
    · have hp' : p ∈ s.engine.posts ++ [p'] := heq ▸ hp
      rcases List.mem_append.1 hp' with hp' | hp'
      · exact h.payload p hp'
      · obtain rfl := List.mem_singleton.1 hp'
        obtain ⟨-, hrequest⟩ := prepareDelivery_eq_some_iff.1 hprepare
        rw [hrequest]
        exact congrArg Event.payload (hsend _ _ _ _ ha).1
  case apply =>
    obtain ⟨htrade, post, p, hpost, hp, he⟩ := h.apply b handler e trade hb hreception
    exact ⟨htrade, post, p, hpost, hposts hp, he⟩

/-- **A statement at the bank** that belongs to a handler. -/
theorem Inv.bankMove (h : Inv S s) {a : Bank.Act} {bank : Bank.State}
    (hmove : Bank.Move a s.bank bank)
    (hinsert : ∀ b e trade, a = .insertProcessed b e trade → ∃ handler,
      s.handlers b = some handler ∧ handler.reception = .apply e trade) :
    Inv S { s with bank } := by
  obtain ⟨hother, hself⟩ := Bank.txs_of_move hmove
  have hprocessed : ∀ {e : EventId}, s.bank.processed.rows e = some () →
      bank.processed.rows e = some () := h.bank.processed_of_move hmove
  refine
    { h with
      bank := h.bank.move hmove
      acknowledged := h.acknowledged.mono fun d D hD =>
        ⟨hD.1, fun n answer now hmem hsucc hbank => hprocessed (hD.2 n answer now hmem hsucc hbank)⟩
      fresh := fun b hb => ?fresh
      running := fun b tx ht => ?running
      committed := fun b e trade outcome ht => ?committed
      answered := fun b handler status hb hstatus h2 => ?answered }
  case fresh =>
    rcases eq_or_ne b a.tid with rfl | hne
    · rcases hself with ⟨e, trade, phase, ha, -⟩ | ⟨tx, ht, -⟩
      · obtain ⟨handler, hb', -⟩ := hinsert _ e trade ha
        rw [hb] at hb'
        cases hb'
      · rw [h.fresh _ hb] at ht
        cases ht
    · exact (hother b hne).trans (h.fresh b hb)
  case running =>
    rcases eq_or_ne b a.tid with rfl | hne
    · rcases hself with ⟨e, trade, phase, ha, -, ht'⟩ | ⟨tx', ht', ⟨phase, hs'⟩ | ⟨outcome, hs'⟩ | hs'⟩
      · rw [ht'] at ht
        cases ht
        exact hinsert _ e trade ha
      · rw [hs'] at ht
        cases ht
        exact h.running _ tx' ht'
      · rw [hs'] at ht
        cases ht
      · rw [hs'] at ht
        cases ht
    · exact h.running b tx ((hother b hne).symm.trans ht)
  case committed =>
    rcases eq_or_ne b a.tid with rfl | hne
    · rcases hself with ⟨_, _, phase, ha, -, ht'⟩ | ⟨tx', ht', ⟨phase, hs'⟩ | ⟨outcome', hs'⟩ | hs'⟩
      · rw [ht'] at ht
        cases ht
      · rw [hs'] at ht
        cases ht
      · rw [hs'] at ht
        cases ht
        obtain ⟨handler, hb, hreception⟩ := h.running _ tx' ht'
        exact (h.apply _ handler _ _ hb hreception).1
      · rw [hs'] at ht
        cases ht
    · exact h.committed b e trade outcome ((hother b hne).symm.trans ht)
  case answered =>
    obtain ⟨e, trade, hreception, he⟩ := h.answered b handler status hb hstatus h2
    exact ⟨e, trade, hreception, hprocessed he⟩

/-- **A handler that begins, or that answers.** -/
theorem Inv.handle (h : Inv S s) {b : Bank.Tid} {handler : Handler}
    (hrunning : ∀ tx, s.bank.txs b = .running tx → handler.reception = .apply tx.eventId tx.trade)
    (happly : ∀ e trade, handler.reception = .apply e trade →
      S.parseTrade (S.events e).payload = .ok (some trade) ∧ ∃ post p, handler.post = some post ∧
        s.engine.posts[post]? = some p ∧ p.request.eventId = e)
    (hdeclined : ∀ status, handler.reception = .answer status → ¬ Is2xx status)
    (hanswered : ∀ status, handler.answered = some status → Is2xx status →
      ∃ e trade, handler.reception = .apply e trade ∧ s.bank.processed.rows e = some ()) :
    Inv S (s.handle b handler) := by
  have hcases : ∀ {b' : Bank.Tid} {handler' : Handler},
      (s.handle b handler).handlers b' = some handler' →
      (b' = b ∧ handler' = handler) ∨ s.handlers b' = some handler' := by
    intro b' handler' hb'
    refine (update_apply_eq_iff.1 hb').imp (fun h => ⟨h.1, ?_⟩) And.right
    exact (Option.some.inj h.2).symm
  refine
    { h with
      fresh := fun b' hb' => ?fresh
      running := fun b' tx ht => ?running
      apply := fun b' handler' e trade hb' hreception => ?apply
      declined := fun b' handler' status hb' hreception => ?declined
      answered := fun b' handler' status hb' hstatus h2 => ?answered }
  case fresh =>
    rcases eq_or_ne b' b with rfl | hne
    · simp [State.handle] at hb'
    · exact h.fresh b' ((Function.update_of_ne hne _ _).symm.trans hb')
  case running =>
    rcases eq_or_ne b' b with rfl | hne
    · exact ⟨handler, Function.update_self .., hrunning tx ht⟩
    · obtain ⟨handler', hb', hreception⟩ := h.running b' tx ht
      exact ⟨handler', (Function.update_of_ne hne _ _).trans hb', hreception⟩
  case apply =>
    rcases hcases hb' with ⟨-, rfl⟩ | hb'
    · exact happly e trade hreception
    · exact h.apply b' handler' e trade hb' hreception
  case declined =>
    rcases hcases hb' with ⟨-, rfl⟩ | hb'
    · exact hdeclined status hreception
    · exact h.declined b' handler' status hb' hreception
  case answered =>
    rcases hcases hb' with ⟨-, rfl⟩ | hb'
    · exact hanswered status hstatus h2
    · exact h.answered b' handler' status hb' hstatus h2

/-- A handler that begins with a request. -/
theorem Inv.arrive (h : Inv S s) {b : Bank.Tid} (hb : s.handlers b = none) {post : Option ℕ}
    {verified : Bool} {envelope : Option (EventId × π)}
    (henvelope : ∀ e payload, envelope = some (e, payload) → verified = true →
      payload = (S.events e).payload ∧ ∃ n p, post = some n ∧ s.engine.posts[n]? = some p ∧
        p.request.eventId = e) :
    Inv S (s.handle b
      { post
        mode := s.mode
        reception := Bank.bankSafeReceiver S.parseTrade s.mode verified envelope
        answered := none }) := by
  refine h.handle (fun tx ht => ?_) (fun e trade hreception => ?_)
    (fun status => Bank.not_is2xx_of_bankSafeReceiver) nofun
  · rw [h.fresh b hb] at ht
    cases ht
  · obtain ⟨-, hverified, payload, henv, htrade⟩ := Bank.bankSafeReceiver_eq_apply_iff.1 hreception
    obtain ⟨rfl, hpost⟩ := henvelope e payload henv hverified
    exact ⟨htrade, hpost⟩

/-- A handler that answers. -/
theorem Inv.answer (h : Inv S s) {b : Bank.Tid} {handler : Handler}
    (hb : s.handlers b = some handler) {status : ℕ}
    (hstatus : Is2xx status → ∃ e trade, handler.reception = .apply e trade ∧
      s.bank.processed.rows e = some ()) :
    Inv S (s.handle b { handler with answered := some status }) := by
  refine h.handle (fun tx ht => ?_) (fun e trade => h.apply b handler e trade hb)
    (fun status => h.declined b handler status hb) fun status' heq h2 => ?_
  · obtain ⟨handler', hb', hreception⟩ := h.running b tx ht
    rw [hb] at hb'
    obtain rfl := Option.some.inj hb'
    exact hreception
  · obtain rfl := Option.some.inj heq
    exact hstatus h2

end Moves

/-- What a transaction waits for. -/
theorem State.awaited_eq {s : State π} {t : Engine.Tid} {tx : Engine.Tx} {job : Engine.Job}
    {d : DeliveryId} {post : ℕ} (ht : s.engine.txs t = .running tx)
    (hphase : tx.phase = .posting job d post) : s.awaited t = some post := by
  obtain ⟨phase, worker, inserted, trail⟩ := tx
  obtain rfl : phase = .posting job d post := hphase
  simp [State.awaited, ht]

theorem inv_init : Inv S (init : State π) where
  bank := Bank.inv_init
  acknowledged := Engine.inv_init
  awaits := nofun
  payload := nofun
  fresh _ _ := rfl
  running := nofun
  committed := nofun
  apply := nofun
  declined := nofun
  answered := nofun

section Runs

variable [DecidableEq π]

/-- **Every move keeps the invariant.** -/
theorem Inv.move {a : Act π} {s s' : State π} (h : Inv S s) (hmove : Move S a s s') : Inv S s' := by
  cases hmove with
  | @engine _ a engine hpermits hmove =>
    refine h.engine hmove (fun t endpoint event timestamp ha => ?_)
      fun t tx job d post r p answer durationMs now draw ha ht hphase hp hsends hsucc hbank => ?_
    · subst ha
      simpa [permits, imp_iff_not_or] using hpermits
    · subst ha
      have hawaits : s.awaitsBank S.bankUrl t = true := by
        simp [State.awaitsBank, State.awaited_eq ht hphase, hp, hsends.2 hbank]
      simp [permits, hsucc, hawaits] at hpermits
  | @arrive _ b post verified p hb hp =>
    refine h.arrive hb fun e payload henvelope _ => ?_
    unfold Bank.parseEnvelope at henvelope
    split at henvelope
    · cases henvelope
      exact ⟨h.payload p (List.mem_of_getElem? hp), post, p, rfl, hp, rfl⟩
    · cases henvelope
  | forge hb => exact h.arrive hb nofun
  | bank hinsert hcommit hmove =>
    refine h.bankMove hmove fun b e trade ha => ?_
    obtain ⟨handler, hb, hreception, -⟩ := hinsert b e trade ha
    exact ⟨handler, hb, hreception⟩
  | decline hb hreception hanswered =>
    exact h.answer hb fun h2 => absurd h2 (h.declined _ _ _ hb hreception)
  | @commit _ b handler e trade bank hb hreception hanswered hmove =>
    refine (h.bankMove hmove nofun).answer hb fun _ => ?_
    obtain ⟨tx, ht, hprocessed⟩ := h.bank.processed_of_commit hmove
    obtain ⟨handler', hb', hreception'⟩ := h.running b tx ht
    rw [hb] at hb'
    obtain rfl := Option.some.inj hb'
    exact ⟨_, _, hreception', hprocessed⟩
  | @fail _ b handler bank hb hanswered hbank =>
    have hinv : Inv S { s with bank } := by
      rcases hbank with rfl | hmove
      · exact h
      · exact h.bankMove hmove nofun
    exact hinv.answer hb fun h2 => absurd h2 (by decide)
  | @respond _ t b answer durationMs now draw handler post status engine hb hpost hanswered hawaited
      hstatus hmove =>
    refine h.engine hmove nofun
      fun t' tx job d post' r p answer' durationMs' now' draw' ha ht hphase hp hsends hsucc hbank => ?_
    cases ha
    rw [State.awaited_eq ht hphase] at hawaited
    obtain rfl := Option.some.inj hawaited
    obtain ⟨status', hstatus', h2⟩ := Answer.is2xx_of_succeeded hsucc
    rw [hstatus] at hstatus'
    obtain rfl := Option.some.inj hstatus'
    obtain ⟨e, trade, hreception, hprocessed⟩ := h.answered b handler status hb hanswered h2
    obtain ⟨-, post'', p', hpost', hp', he⟩ := h.apply b handler e trade hb hreception
    rw [hpost] at hpost'
    obtain rfl := Option.some.inj hpost'
    rw [hp] at hp'
    obtain rfl := Option.some.inj hp'
    rw [← hsends.1, he]
    exact hprocessed
  | setMode => exact { h with }

theorem inv_of_reachable {s : State π} (h : (system S).Reachable s) : Inv S s :=
  h.invariant inv_init fun _ _ _ hinv hstep => hinv.move (move_of_step hstep)

end Runs

/-! ## The balance -/

/-- How often the bank has counted the event. -/
def State.counted (s : State π) (e : EventId) : ℕ := s.bank.log.countP fun p => p.2.1 = e

/-- The sum of the deltas of the account's trades, those of event `e` apart. -/
def State.otherCredits (s : State π) (e : EventId) (account : PyStr) : Bank.Cents :=
  ((s.bank.log.filter fun p => p.2.2.account = account ∧ p.2.1 ≠ e).map fun p => p.2.2.delta).sum

/-- The trades of an account are those of the event and the others. -/
theorem sum_deltas {log : List (Bank.Tid × EventId × Bank.ParsedTrade)} {e : EventId}
    {trade : Bank.ParsedTrade} (hlog : ∀ p ∈ log, p.2.1 = e → p.2.2 = trade) :
    ((log.filter fun p => p.2.2.account = trade.account).map fun p => p.2.2.delta).sum =
      (log.countP fun p => p.2.1 = e) * trade.delta +
        ((log.filter fun p => p.2.2.account = trade.account ∧ p.2.1 ≠ e).map
          fun p => p.2.2.delta).sum := by
  induction log with
  | nil => simp
  | cons p log ih =>
    have ih' := ih fun q hq => hlog q (List.mem_cons_of_mem p hq)
    by_cases he : p.2.1 = e
    · have hp := hlog p List.mem_cons_self he
      simp only [List.filter_cons, List.countP_cons, he, hp, decide_true, if_true, ne_eq,
        not_true_eq_false, and_false, decide_false, Bool.false_eq_true, if_false, List.map_cons,
        List.sum_cons, ih', Nat.cast_add, Nat.cast_one]
      ring
    · by_cases ha : p.2.2.account = trade.account
      · simp only [List.filter_cons, List.countP_cons, he, ha, decide_true, if_true, ne_eq,
          not_false_eq_true, and_true, decide_false, Bool.false_eq_true, if_false, List.map_cons,
          List.sum_cons, ih', add_zero]
        ring
      · simpa [he, ha] using ih'

/-- The bank has logged the trade in the event's payload, and no other. -/
theorem Inv.trade_of_log {s : State π} (h : Inv S s) {e : EventId} {trade : Bank.ParsedTrade}
    (htrade : S.parseTrade (S.events e).payload = .ok (some trade))
    {p : Bank.Tid × EventId × Bank.ParsedTrade} (hp : p ∈ s.bank.log) (he : p.2.1 = e) :
    p.2.2 = trade := by
  obtain ⟨t, e', trade'⟩ := p
  obtain rfl : e' = e := he
  have hparse := h.committed t e' trade' .applied ((h.bank.log _ _ _).1 hp)
  rw [htrade] at hparse
  exact (Option.some.inj (Except.ok.inj hparse)).symm

variable [DecidableEq π]

/-- **Bank B counts a trade at most once, and exactly once if it is delivered.** For an event whose
payload `parse_trade` accepts, in every state of every run: the event is counted at most once; the
balance of its account is the starting balance, plus its delta as often as it is counted, plus the
other trades of the account; and once a delivery of the event to the bank is committed as succeeded,
the event has been counted exactly once. -/
theorem counted_once {s : State π} (h : (system S).Reachable s) {e : EventId}
    {trade : Bank.ParsedTrade} (htrade : S.parseTrade (S.events e).payload = .ok (some trade)) :
    s.counted e ≤ 1 ∧
    (∀ row, s.bank.accounts.rows trade.account = some row → row.balance =
      Bank.startingBalance + s.counted e * trade.delta + s.otherCredits e trade.account) ∧
    (s.counted e = 1 → ∃ row, s.bank.accounts.rows trade.account = some row) ∧
    ∀ d r, s.engine.deliveries.rows d = some r → r.eventId = e → r.endpointId = S.bankId →
      r.status = .succeeded → s.counted e = 1 := by
  have hinv := inv_of_reachable h
  have hcount : s.counted e = (s.bank.log.map fun p => p.2.1).count e := by
    rw [List.count, List.countP_map]
    exact List.countP_congr fun p _ => by simp
  have hle : s.counted e ≤ 1 := hcount ▸ List.nodup_iff_count_le_one.1 hinv.bank.nodup e
  refine ⟨hle, fun row hrow => ?balance, fun hone => ?row, fun d r hr he hbank hs => ?succeeded⟩
  case balance =>
    have hbalance := hinv.bank.balance trade.account
    rw [hrow, Bank.State.credits, sum_deltas fun p hp he => hinv.trade_of_log htrade hp he,
      ← add_assoc] at hbalance
    exact hbalance
  case row =>
    have hmem : e ∈ s.bank.log.map fun p => p.2.1 := List.count_pos_iff.1 (by omega)
    obtain ⟨⟨t, e', trade'⟩, hp, rfl⟩ := List.mem_map.1 hmem
    obtain rfl := hinv.trade_of_log htrade hp rfl
    exact hinv.bank.exists_account hp
  case succeeded =>
    obtain ⟨hlife, hack⟩ := (hinv.acknowledged.rows d r hr).1
    obtain ⟨n, answer, now, hmem, hsucc⟩ := hlife.exists_answered_of_succeeded hs
    have hprocessed := (hinv.bank.processed _).1 (hack n answer now hmem hsucc hbank)
    have hpos : 0 < s.counted e := by
      rw [hcount, ← he]
      exact List.count_pos_iff.2 hprocessed
    omega

/-! ## A lost acknowledgement -/

/-- Bank B at `http://receiver.example/hook`, and one event, a purchase of one dollar. -/
def purchase : Setup Unit where
  lib := Engine.receiverHost
  cfg := defaultSettings
  events _ := (claimedAt 1 1).event
  bankId := 1
  bankUrl := (claimedAt 1 1).endpoint.url
  parseTrade _ := .ok (some ⟨[], 100, 0, []⟩)

/-- The handler `b` of POST number `post` runs `statements` and commits. -/
def handling (b post : ℕ) (statements : List (Bank.Tid → Bank.Act)) : List (Act Unit) :=
  [.arrive b post true, .bank (.insertProcessed b 1 ⟨[], 100, 0, []⟩)] ++
    statements.map (fun f => .bank (f b)) ++ [.finish b]

/-- The flaky bank counts the trade and answers `500`; the healthy bank finds a duplicate in the
retry and answers `200`. -/
def lostAck : List (Act Unit) :=
  (Engine.ingestion 0 ++ Engine.tickUpToPost 1).map .engine ++ [.setMode .flaky] ++
    handling 1 0 [.ensureAccount, .lockAccount, .flush] ++
    [.respond 1 1 (.response 500 []) 5 0 .zero, .engine (.commit 1),
      .setMode .healthy, .engine (.advance 60), .engine (.recover 2 [] 60 []),
      .engine (.claim 2 60 [1]),
      .engine (.send 2 (claimedAt 1 1).endpoint (claimedAt 1 1).event 60)] ++
    handling 2 1 [] ++
    [.respond 2 2 (.response 200 []) 5 60 .zero, .engine (.commit 2)]

/-- A trade whose first acknowledgement is lost is counted once. -/
theorem counted_once_lostAck : ∃ s : State Unit, (system purchase).Reachable s ∧
    (∃ r, s.engine.deliveries.rows 1 = some r ∧ r.status = .succeeded ∧ r.attemptCount = 2) ∧
    s.counted 1 = 1 ∧ ∃ row, s.bank.accounts.rows [] = some row ∧
      row.balance = Bank.startingBalance + 1 * 100 + s.otherCredits 1 [] := by
  have hrun : ((system purchase).run lostAck init).map (fun s =>
      (s.engine.deliveries.rows 1).any fun r => r.eventId = 1 ∧ r.endpointId = 1 ∧
        r.status = .succeeded ∧ r.attemptCount = 2) = some true := by
    decide +kernel
  obtain ⟨s, hs, hp⟩ := Machine.exists_reachable_of_run (fun _ _ => True)
    (fun _ _ _ => trivial) hrun
  obtain ⟨r, hr, hp⟩ := (Option.any_eq_true _ _).1 hp
  obtain ⟨he, hbank, hstatus, hcount⟩ := of_decide_eq_true hp
  obtain ⟨-, hbalance, hrow, hsucceeded⟩ := counted_once (e := 1) hs rfl
  have hone := hsucceeded 1 r hr he hbank hstatus
  obtain ⟨row, hrow⟩ := hrow hone
  refine ⟨s, hs, ⟨r, hr, hstatus, hcount⟩, hone, row, hrow, ?_⟩
  have hbalance' := hbalance row hrow
  rw [hone] at hbalance'
  exact hbalance'

end Hookit.Showcase
