import Hookit.Foundations.Records
import Hookit.Tenancy.Progress

/-!
# Signing secrets over runs

A project is told the secret of an endpoint when it creates the endpoint and when it rotates the
secret, and never again (`secretEvent`). `secret_serve` says what a transaction does to the secrets
in terms of these events, and `signed_as_shown` that over a whole run the worker signs with the
secret that was shown last: whatever else happens to the endpoint, `verify_signature` accepts the
header under that secret.
-/

namespace Hookit.Tenancy

open Foundations Foundations.PyStr Foundations.Service

variable {D : Deployment} {p : Uuid} {db db' : Database}

/-- The endpoint whose secret an answer shows, with the secret. -/
def secretShown {maxBytes : ℕ} : Call maxBytes → Answer → Option (Uuid × Secret)
  | .createEndpoint _ _, .created endpoint secret => some (endpoint.id, secret)
  | .rotateEndpointSecret endpointId _ _, .secret secret => some (endpointId, secret)
  | _, _ => none

/-- What a transaction shows. -/
def secretEvent {maxBytes : ℕ} :
    Action maxBytes → Except ApiError Answer → Option (Uuid × Secret)
  | .request _ _ call, .ok answer => secretShown call answer
  | _, _ => none

/-- The secret of an endpoint that has been shown last. -/
def lastShown (events : List (Uuid × Secret)) (endpointId : Uuid) : Option Secret :=
  events.foldl (fun shown e => if e.1 = endpointId then some e.2 else shown) none

/-! ## One transaction -/

section Transaction

/-- The secret of an endpoint is shown, or it is what it was. -/
def Follows (db : Database) (event : Option (Uuid × Secret)) (k : Uuid) (row' : EndpointRow) :
    Prop :=
  event = some (k, row'.secret) ∨
    (∀ secret, event ≠ some (k, secret)) ∧
      ∃ row, db.endpoints.get? k = some row ∧ row.secret = row'.secret

theorem follows_same {k : Uuid} {row : EndpointRow} (h : db.endpoints.get? k = some row) :
    Follows db none k row :=
  .inr ⟨fun _ hnone => (by cases hnone), row, h, rfl⟩

theorem secret_committed (body : Seeding.EndpointUpdate) (now : Time) (row : EndpointRow) :
    (body.committed now row).secret = row.secret := by
  simp only [Seeding.EndpointUpdate.committed]
  split <;> rfl

/-- **What a request shows** is what it has written. -/
theorem secret_handle {call : Call D.maxEventPayloadBytes} {y : Answer × Database}
    (hunused : call.Unused p db) (h : handle D p call db = .ok y) {k : Uuid} {row' : EndpointRow}
    (hrow' : y.2.endpoints.get? k = some row') : Follows db (secretShown call y.1) k row' := by
  cases call with
  | getMe =>
    simp only [handle] at h
    rw [reading_inv h] at hrow'
    exact follows_same hrow'
  | listEndpoints | getEndpoint | listEvents | getEvent | listDeliveries | getDelivery
    | listDeliveryAttempts | getMetricsSummary =>
    obtain ⟨x, hx, rfl⟩ := map_eq_ok_iff.1 h
    rw [show x.2 = db from reading_inv hx] at hrow'
    exact follows_same hrow'
  | createEndpoint body fresh =>
    obtain ⟨x, hx, rfl⟩ := map_eq_ok_iff.1 h
    obtain rfl := createEndpoint_inv hx
    have hfresh : db.endpoints.get? fresh.id = none := hunused
    rw [Rows.get?_insert, hfresh, Option.getD_none] at hrow'
    split at hrow'
    · next hk =>
      obtain rfl := Option.some.inj hrow'
      exact .inl (by rw [hk]; rfl)
    · next hk =>
      refine .inr ⟨fun _ heq => hk ?_, row', hrow', rfl⟩
      exact (Prod.mk.inj (Option.some.inj heq)).1.symm
  | updateEndpoint endpointId body now =>
    obtain ⟨x, hx, rfl⟩ := map_eq_ok_iff.1 h
    obtain ⟨row, hrow, heq⟩ := updateEndpoint_inv hx
    simp only [heq, Rows.get?_modifyAt] at hrow'
    split at hrow'
    · next hk =>
      obtain ⟨row₀, hrow₀, rfl⟩ := Option.map_eq_some_iff.1 hrow'
      refine .inr ⟨fun _ hnone => (by cases hnone), row, ?_, (secret_committed body now row).symm⟩
      rw [hk, hrow]
    · exact follows_same hrow'
  | deleteEndpoint endpointId =>
    obtain ⟨x, hx, rfl⟩ := map_eq_ok_iff.1 h
    obtain ⟨-, -, hx⟩ := bind_eq_ok_iff.1 hx
    obtain rfl := pure_eq_ok_iff.1 hx
    exact follows_same (Option.filter_eq_some_iff.1
      ((Rows.get?_filter (T := db.endpoints) _).symm.trans hrow')).1
  | rotateEndpointSecret endpointId secret now =>
    obtain ⟨x, hx, rfl⟩ := map_eq_ok_iff.1 h
    obtain rfl := rotateEndpointSecret_inv hx
    rw [Rows.get?_modifyAt] at hrow'
    split at hrow'
    · next hk =>
      obtain ⟨row, hrow, rfl⟩ := Option.map_eq_some_iff.1 hrow'
      exact .inl (by rw [hk]; rfl)
    · next hk =>
      refine .inr ⟨fun _ heq => hk ?_, row', hrow', rfl⟩
      exact (Prod.mk.inj (Option.some.inj heq)).1.symm
  | publishEvent body idempotencyKey draws =>
    obtain ⟨x, hx, rfl⟩ := map_eq_ok_iff.1 h
    rcases ingestEvent_inv hx with ⟨key, record, -, rfl⟩ | ⟨event, records, -, -, rfl⟩ <;>
    · exact follows_same hrow'
  | redriveDelivery deliveryId now updatedAt =>
    obtain ⟨x, hx, rfl⟩ := map_eq_ok_iff.1 h
    obtain ⟨r, -, -, heq⟩ := redriveDelivery_inv hx
    simp only [heq] at hrow'
    exact follows_same hrow'

/-- Only requests write endpoints. -/
theorem endpoints_serve {a : Action D.maxEventPayloadBytes}
    (h : ∀ credentials now call, a ≠ .request credentials now call) :
    (serve D a db).2.endpoints = db.endpoints := by
  rcases serve_cases a db with hsame | ⟨credentials, now, call, -, -, -, rfl, -⟩ |
    ⟨project, k, leased, now, updatedAt, r, rfl, -, hserve⟩ | ⟨draws, settled, rfl, hout⟩
  · exact hsame.endpoints
  · exact absurd rfl (h credentials now call)
  · rw [hserve]
  · simp only [serve, tick_of_ok hout]
    rfl

/-- **What a transaction does to the secrets.** -/
theorem secret_serve {a : Action D.maxEventPayloadBytes} (ha : Unused D a db) {k : Uuid}
    {row' : EndpointRow} (hrow' : (serve D a db).2.endpoints.get? k = some row') :
    Follows db (secretEvent a (serve D a db).1) k row' := by
  cases a with
  | request credentials now call =>
    cases hauth : authenticate D.sha256 credentials now db with
    | error e =>
      simp only [serve, hauth] at hrow' ⊢
      exact follows_same hrow'
    | ok x =>
      obtain ⟨q, db₁⟩ := x
      have hunused := ha q db₁ hauth
      obtain ⟨-, -, keyId, -, -, -, -, -, -, rfl⟩ := authenticate_eq_ok_iff.1 hauth
      cases hroute : handle D q call (setApiKey db keyId (usedAt now)) with
      | error e =>
        simp only [serve, hauth, hroute] at hrow' ⊢
        exact follows_same hrow'
      | ok y =>
        simp only [serve, hauth, hroute, respond] at hrow' ⊢
        exact secret_handle hunused hroute hrow'
  | createProject | createApiKey | deleteApiKey | commitRedrive | tick =>
    rw [endpoints_serve fun _ _ _ h => by cases h] at hrow'
    exact follows_same hrow'

end Transaction

/-! ## Runs -/

theorem lastShown_append (events : List (Uuid × Secret)) (event : Option (Uuid × Secret))
    (k : Uuid) : lastShown (events ++ event.toList) k =
      match event with
      | some e => if e.1 = k then some e.2 else lastShown events k
      | none => lastShown events k := by
  cases event with
  | none => rw [Option.toList_none, List.append_nil]
  | some e => rw [lastShown, Option.toList_some, List.foldl_append, List.foldl_cons, List.foldl_nil,
      ← lastShown]

/-- Every endpoint has the secret that has been shown last. -/
def Shown (events : List (Uuid × Secret)) (db : Database) : Prop :=
  ∀ k row, db.endpoints.get? k = some row → lastShown events k = some row.secret

theorem Shown.step {events : List (Uuid × Secret)} (h : Shown events db)
    {a : Action D.maxEventPayloadBytes} (ha : Unused D a db) :
    Shown (events ++ (secretEvent a (serve D a db).1).toList) (serve D a db).2 := by
  intro k row' hrow'
  rw [lastShown_append]
  rcases secret_serve ha hrow' with hevent | ⟨hother, row, hrow, hsecret⟩
  · rw [hevent]
    exact if_pos rfl
  · rw [← hsecret, ← h k row hrow]
    cases hevent : secretEvent a (serve D a db).1 with
    | none => rfl
    | some e =>
      refine if_neg fun hk => hother e.2 ?_
      rw [hevent, ← hk]

/-- The secrets that a run has shown. -/
def secretEvents (D : Deployment) (l : List (Action D.maxEventPayloadBytes)) (db : Database) :
    List (Uuid × Secret) := (service D).log secretEvent l db

theorem shown_exec {l : List (Action D.maxEventPayloadBytes)}
    (hl : (service D).Meets (Unused D) l .empty) :
    Shown (secretEvents D l .empty) ((service D).exec l .empty) := by
  have hempty : Shown [] .empty := by
    intro k row hrow
    cases hrow
  have h : Shown ([] ++ secretEvents D l .empty) ((service D).exec l .empty) :=
    hl.log_invariant (P := Shown) (fun hs ha => hs.step ha) hempty
  rwa [List.nil_append] at h

/-- **The worker signs with the secret that was shown last**: after any run, the header that it
builds for an endpoint is accepted under the last secret that the API has answered for the endpoint,
while the clock of the receiver is within the window. -/
theorem signed_as_shown {l : List (Action D.maxEventPayloadBytes)}
    (hl : (service D).Meets (Unused D) l .empty) {endpointId : Uuid} {row : EndpointRow}
    (hrow : ((service D).exec l .empty).endpoints.get? endpointId = some row) (H : Hmac)
    {timestamp : ℤ} (body : Bytes) {sent now : ℚ}
    (hsent : PyFloat.ofInt? timestamp = some (.finite sent)) (hage : |now - sent| ≤ maxAgeSeconds) :
    ∃ secret header, lastShown (secretEvents D l .empty) endpointId = some secret ∧
      buildSignatureHeader H row.secret timestamp body = .ok header ∧
      verifySignature H secret (some header) body (.finite now) = .ok (true, ofString "ok") := by
  obtain ⟨header, hheader, hverify⟩ :=
    @verifySignature_buildSignatureHeader H row.secret timestamp body sent now hsent hage
  exact ⟨row.secret, header, shown_exec hl endpointId row hrow, hheader, hverify⟩

/-- The secret after the rotation. -/
def rotatedSecret : Secret := ⟨ofString "whsec_fedcba9876543210", by decide⟩

/-- An endpoint, and the rotation of its secret. -/
def rotatedRun : List (Action sampleDeployment.maxEventPayloadBytes) :=
  registration ++ [.request (some (ofString "whk_secret-of-a")) 2
    (.rotateEndpointSecret (.ofNat 3) rotatedSecret 2)]

theorem rotatedRun_unused : (service sampleDeployment).Meets (Unused sampleDeployment) rotatedRun
    .empty := by
  have hregistration := (meets_append.1 deliveredRun_admitted).1.mono fun h => h.1
  exact meets_append.2 ⟨hregistration, fun _ _ _ => trivial, trivial⟩

/-- After the rotation the worker signs with the new secret. -/
theorem signed_as_shown_rotatedRun : ∃ secret header,
    lastShown (secretEvents sampleDeployment rotatedRun .empty) (.ofNat 3) = some secret ∧
    buildSignatureHeader sampleHmac rotatedSecret 1700000000 sampleBody = .ok header ∧
    verifySignature sampleHmac secret (some header) sampleBody (.finite 1700000300) =
      .ok (true, ofString "ok") := by
  obtain ⟨row, hrow, hsecret⟩ : ∃ row,
      ((service sampleDeployment).exec rotatedRun .empty).endpoints.get? (.ofNat 3) = some row ∧
      row.secret = rotatedSecret := ⟨_, rfl, rfl⟩
  have hsent : PyFloat.ofInt? 1700000000 = some (.finite 1700000000) := by decide +kernel
  rw [← hsecret]
  exact signed_as_shown rotatedRun_unused hrow sampleHmac sampleBody hsent (by decide +kernel)

end Hookit.Tenancy
