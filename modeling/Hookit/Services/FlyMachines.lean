import Hookit.Receivers.Envelope
import Hookit.Services.Discord
import Hookit.Services.Watchdog

/-!
# `app/services/fly_machines.py` and the wake-up at startup

The client of the Machines API on any reply: a transport error, any status and any body. `json.loads`
is a parameter, as is whether httpx takes the URL that a machine id is put into.

* `exists_listMachineIds_iff`: listing returns exactly where the reply is one that the code can walk
  (`Walkable`): the chained lookups stand outside the `try` block.
* `exists_wakeGroups_iff`: startup completes exactly where both lists can be walked and the ids fit
  a URL.
* `listMachineIds_perm`: on a well-formed list, the started machines and the others are together the
  machines of the group.
* `matchIds_machines`: the lists of the watchdog's model are those that the client makes.
-/

namespace Hookit.Fly

open Foundations Foundations.PyStr Hookit.Watchdog

/-- What comes out of the client. -/
inductive FlyError
  | attributeError
  | keyError
  | typeError
  | recursionError
  | invalidUrl
  deriving DecidableEq, Repr

/-- What a request comes to. -/
inductive Reply
  /-- An `httpx.HTTPError`. -/
  | httpError
  | response (statusCode : ℕ) (content : Bytes)

/-- The metadata value that names a process group. -/
def groupName : ProcessGroup → PyStr
  | .app => ofString "app"
  | .producer => ofString "producer"
  | .worker => ofString "worker"

/-! ## Walking the list -/

/-- The items that a `for` loop over the document takes. -/
def iterate : Json → Except FlyError (List Json)
  | .arr items => .ok items
  | .obj fields => .ok (fields.map fun f => .str f.1)
  | .str s => .ok (s.map fun c => .str [c])
  | _ => .error .typeError

/-- `doc.get(key, default)`. -/
def getOr (doc : Json) (key : String) (default : Json) : Except FlyError Json :=
  match doc with
  | .obj fields => .ok ((Json.get fields (ofString key)).getD default)
  | _ => .error .attributeError

/-- `doc[key]` of a dictionary. -/
def item (doc : Json) (key : String) : Except FlyError Json :=
  match doc with
  | .obj fields => ((Json.get fields (ofString key)).map Except.ok).getD (.error .keyError)
  | _ => .error .typeError

/-- `doc == text`. -/
def isText (doc : Json) (text : PyStr) : Bool :=
  match doc with
  | .str s => s = text
  | _ => false

/-- The loop body of `list_machine_ids`: the id of a machine that matches. -/
def matchId (group : PyStr) (started : Bool) (machine : Json) : Except FlyError (Option Json) := do
  let config ← getOr machine "config" (.obj [])
  let metadata ← getOr config "metadata" (.obj [])
  let named ← getOr metadata "fly_process_group" .null
  if isText named group = false then return none
  let state ← getOr machine "state" .null
  if isText state (ofString "started") = started then return some (← item machine "id")
  else return none

/-- The loop of `list_machine_ids`. -/
def matchIds (group : PyStr) (started : Bool) : List Json → Except FlyError (List Json)
  | [] => .ok []
  | machine :: machines => do
    let id ← matchId group started machine
    let ids ← matchIds group started machines
    return id.toList ++ ids

/-- `list_machine_ids`. -/
def listMachineIds (loads : Bytes → Except Receivers.LoadsError Json) (group : PyStr)
    (started : Bool) : Reply → Except FlyError (List Json)
  | .httpError => .ok []
  | .response statusCode content =>
    if Is2xx statusCode then
      match loads content with
      | .error .recursionError => .error .recursionError
      -- a `ValueError`
      | .error _ => .ok []
      | .ok doc => do matchIds group started (← iterate doc)
    else .ok []

/-! ## The wake-up -/

/-- `_post`: whether it succeeded. -/
def post (takes : Json → Bool) (id : Json) : Reply → Except FlyError Bool
  | reply =>
    if takes id then
      match reply with
      | .httpError => .ok false
      | .response statusCode _ => .ok (decide (Is2xx statusCode))
    else .error .invalidUrl

/-- The inner loop of `wake_showcase_machines`, from call number `n` on: the machines that were
started. -/
def startEach (takes : Json → Bool) (replies : ℕ → Reply) :
    ℕ → List Json → Except FlyError (List Json)
  | _, [] => .ok []
  | n, id :: ids => do
    let succeeded ← post takes id (replies n)
    let rest ← startEach takes replies (n + 1) ids
    return if succeeded then id :: rest else rest

/-- What the Machines API answers during one wake-up. -/
structure Outcomes where
  list : ProcessGroup → Reply
  start : ProcessGroup → ℕ → Reply

/-- The outer loop of `wake_showcase_machines`. -/
def wakeGroups (loads : Bytes → Except Receivers.LoadsError Json) (takes : Json → Bool)
    (outcomes : Outcomes) : List ProcessGroup → Except FlyError (List Json)
  | [] => .ok []
  | group :: groups => do
    let ids ← listMachineIds loads (groupName group) false (outcomes.list group)
    let started ← startEach takes (outcomes.start group) 0 ids
    let rest ← wakeGroups loads takes outcomes groups
    return started ++ rest

/-- `_lifespan` up to its `yield`, with `wake_showcase_machines`: the machines that were started. -/
def startup (loads : Bytes → Except Receivers.LoadsError Json) (takes : Json → Bool)
    (flyApiToken flyAppName : PyStr) (outcomes : Outcomes) : Except FlyError (List Json) :=
  if flyApiToken ≠ [] ∧ flyAppName ≠ [] then wakeGroups loads takes outcomes processGroups
  else .ok []

/-! ## Which replies can be walked -/

/-- The fields of a machine and its metadata, where both lookups meet dictionaries. -/
def view? (machine : Json) : Option (JsonObject × JsonObject) :=
  match machine with
  | .obj fields =>
    match (Json.get fields (ofString "config")).getD (.obj []) with
    | .obj config =>
      match (Json.get config (ofString "metadata")).getD (.obj []) with
      | .obj metadata => some (fields, metadata)
      | _ => none
    | _ => none
  | _ => none

/-- The machine is one that `list_machine_ids` looks for. -/
def Selected (group : PyStr) (started : Bool) (fields metadata : JsonObject) : Prop :=
  textAt metadata "fly_process_group" = some group ∧
    decide (textAt fields "state" = some (ofString "started")) = started

instance (group : PyStr) (started : Bool) (fields metadata : JsonObject) :
    Decidable (Selected group started fields metadata) := by
  unfold Selected
  infer_instance

/-- Nothing is missing that the loop needs of the machine. -/
def Complete (group : PyStr) (started : Bool) (machine : Json) : Prop :=
  ∃ fields metadata, view? machine = some (fields, metadata) ∧
    (Selected group started fields metadata → (Json.get fields (ofString "id")).isSome = true)

/-- The reply is an error, a body that is no JSON, or a list that the loop can walk. -/
def Walkable (loads : Bytes → Except Receivers.LoadsError Json) (group : PyStr) (started : Bool)
    (reply : Reply) : Prop :=
  ∀ statusCode content, reply = .response statusCode content → Is2xx statusCode →
    loads content ≠ .error .recursionError ∧ ∀ doc, loads content = .ok doc →
      doc = .obj [] ∨ doc = .str [] ∨
        ∃ machines, doc = .arr machines ∧ ∀ m ∈ machines, Complete group started m

theorem isText_getD (fields : JsonObject) (key : String) (text : PyStr) :
    isText ((Json.get fields (ofString key)).getD .null) text =
      decide (textAt fields key = some text) := by
  unfold textAt
  cases Json.get fields (ofString key) with
  | none => rfl
  | some doc => cases doc <;> simp [isText]

/-- What the loop body makes of a machine. -/
theorem matchId_eq (group : PyStr) (started : Bool) (machine : Json) :
    matchId group started machine =
      match view? machine with
      | none => .error .attributeError
      | some (fields, metadata) =>
        if Selected group started fields metadata then
          match Json.get fields (ofString "id") with
          | some id => .ok (some id)
          | none => .error .keyError
        else .ok none := by
  unfold matchId view?
  cases machine with
  | obj fields =>
    simp only [getOr, item, bind, Except.bind, pure, Except.pure]
    generalize (Json.get fields (ofString "config")).getD (.obj []) = config
    cases config with
    | obj config =>
      dsimp only
      generalize (Json.get config (ofString "metadata")).getD (.obj []) = metadata
      cases metadata with
      | obj metadata =>
        simp only [isText_getD, Selected]
        by_cases hgroup : textAt metadata "fly_process_group" = some group
        · by_cases hstate : decide (textAt fields "state" = some (ofString "started")) = started
          · simp only [hgroup, hstate, decide_true, and_self, if_true, Bool.true_eq_false, if_false]
            cases Json.get fields (ofString "id") <;> rfl
          · simp [hgroup, hstate]
        · simp [hgroup]
      | _ => rfl
    | _ => rfl
  | _ => rfl

theorem exists_matchId_iff {group : PyStr} {started : Bool} {machine : Json} :
    (∃ id, matchId group started machine = .ok id) ↔ Complete group started machine := by
  rw [matchId_eq]
  unfold Complete
  cases view? machine with
  | none => simp
  | some v =>
    obtain ⟨fields, metadata⟩ := v
    by_cases hsel : Selected group started fields metadata
    · cases hid : Json.get fields (ofString "id") <;> simp [hsel, hid]
    · simp [hsel]

theorem exists_matchIds_iff {group : PyStr} {started : Bool} {machines : List Json} :
    (∃ ids, matchIds group started machines = .ok ids) ↔
      ∀ m ∈ machines, Complete group started m := by
  induction machines with
  | nil => simp [matchIds]
  | cons m machines ih =>
    rw [List.forall_mem_cons, ← ih, ← exists_matchId_iff]
    simp only [matchIds, bind, Except.bind, pure, Except.pure]
    cases matchId group started m with
    | error e => simp
    | ok id => cases matchIds group started machines <;> simp

theorem not_complete_str {group : PyStr} {started : Bool} {s : PyStr} :
    ¬ Complete group started (.str s) := by
  rintro ⟨fields, metadata, hview, -⟩
  cases hview

/-- The loop over a document returns for a list of complete machines, and for what is empty. -/
theorem exists_walk_iff {group : PyStr} {started : Bool} {doc : Json} :
    (∃ ids, (iterate doc).bind (matchIds group started) = .ok ids) ↔
      doc = .obj [] ∨ doc = .str [] ∨
        ∃ machines, doc = .arr machines ∧ ∀ m ∈ machines, Complete group started m := by
  cases doc with
  | arr machines => simp [iterate, Except.bind, exists_matchIds_iff]
  | obj fields =>
    simp only [iterate, Except.bind, exists_matchIds_iff]
    cases fields <;> simp [not_complete_str]
  | str s =>
    simp only [iterate, Except.bind, exists_matchIds_iff]
    cases s <;> simp [not_complete_str]
  | _ => simp [iterate, Except.bind]

/-- **Listing returns exactly where the reply can be walked.** -/
theorem exists_listMachineIds_iff {loads : Bytes → Except Receivers.LoadsError Json}
    {group : PyStr} {started : Bool} {reply : Reply} :
    (∃ ids, listMachineIds loads group started reply = .ok ids) ↔
      Walkable loads group started reply := by
  unfold Walkable
  cases reply with
  | httpError => simp [listMachineIds]
  | response statusCode content =>
    simp only [listMachineIds, Reply.response.injEq]
    by_cases hstatus : Is2xx statusCode
    · rw [if_pos hstatus]
      have hreduce : (∀ statusCode' content', statusCode = statusCode' ∧ content = content' →
          Is2xx statusCode' → loads content' ≠ .error .recursionError ∧
            ∀ doc, loads content' = .ok doc → doc = .obj [] ∨ doc = .str [] ∨
              ∃ machines, doc = .arr machines ∧ ∀ m ∈ machines, Complete group started m) ↔
          loads content ≠ .error .recursionError ∧
            ∀ doc, loads content = .ok doc → doc = .obj [] ∨ doc = .str [] ∨
              ∃ machines, doc = .arr machines ∧ ∀ m ∈ machines, Complete group started m :=
        ⟨fun h => h _ _ ⟨rfl, rfl⟩ hstatus, by rintro h _ _ ⟨rfl, rfl⟩ -; exact h⟩
      rw [hreduce]
      cases hdoc : loads content with
      | error e => cases e <;> simp
      | ok doc =>
        refine exists_walk_iff.trans ⟨fun h => ⟨nofun, ?_⟩, fun h => h.2 doc rfl⟩
        rintro doc' hdoc'
        obtain rfl := Except.ok.inj hdoc'
        exact h
    · simp [hstatus]

/-! ## Startup -/

section Startup

variable {loads : Bytes → Except Receivers.LoadsError Json} {takes : Json → Bool}

/-- What a wake-up needs of the reply to the list request for a group: it can be walked, and httpx
takes the ids of the machines to start. -/
def Wakeable (loads : Bytes → Except Receivers.LoadsError Json) (takes : Json → Bool)
    (group : PyStr) (reply : Reply) : Prop :=
  Walkable loads group false reply ∧
    ∀ statusCode content machines, reply = .response statusCode content → Is2xx statusCode →
      loads content = .ok (.arr machines) → ∀ m ∈ machines, ∀ fields metadata id,
        view? m = some (fields, metadata) → Selected group false fields metadata →
        Json.get fields (ofString "id") = some id → takes id = true

theorem mem_matchId {group : PyStr} {started : Bool} {m : Json} {first : Option Json}
    (h : matchId group started m = .ok first) {id : Json} : id ∈ first.toList ↔
      ∃ fields metadata, view? m = some (fields, metadata) ∧
        Selected group started fields metadata ∧ Json.get fields (ofString "id") = some id := by
  rw [matchId_eq] at h
  cases hview : view? m with
  | none =>
    rw [hview] at h
    cases h
  | some v =>
    obtain ⟨fields, metadata⟩ := v
    simp only [hview] at h
    by_cases hsel : Selected group started fields metadata
    · rw [if_pos hsel] at h
      cases hid : Json.get fields (ofString "id") with
      | none =>
        rw [hid] at h
        cases h
      | some id' =>
        rw [hid] at h
        obtain rfl := Except.ok.inj h
        simp [hsel, hid, eq_comm]
    · rw [if_neg hsel] at h
      obtain rfl := Except.ok.inj h
      simp [hsel]

theorem mem_matchIds {group : PyStr} {started : Bool} {machines ids : List Json}
    (h : matchIds group started machines = .ok ids) {id : Json} : id ∈ ids ↔
      ∃ m ∈ machines, ∃ fields metadata, view? m = some (fields, metadata) ∧
        Selected group started fields metadata ∧ Json.get fields (ofString "id") = some id := by
  induction machines generalizing ids with
  | nil =>
    obtain rfl := Except.ok.inj h
    simp
  | cons m machines ih =>
    simp only [matchIds, bind, Except.bind, pure, Except.pure] at h
    split at h
    · cases h
    · rename_i first hfirst
      split at h
      · cases h
      · rename_i rest hrest
        obtain rfl := Except.ok.inj h
        rw [List.mem_append, ih hrest, List.exists_mem_cons_iff]
        exact or_congr_left (mem_matchId hfirst)

/-- The ids that a list request brings are those of the machines that match. -/
theorem mem_listMachineIds {group : PyStr} {started : Bool} {reply : Reply} {ids : List Json}
    (h : listMachineIds loads group started reply = .ok ids) {id : Json} : id ∈ ids ↔
      ∃ statusCode content machines, reply = .response statusCode content ∧ Is2xx statusCode ∧
        loads content = .ok (.arr machines) ∧ ∃ m ∈ machines, ∃ fields metadata,
          view? m = some (fields, metadata) ∧ Selected group started fields metadata ∧
          Json.get fields (ofString "id") = some id := by
  cases reply with
  | httpError =>
    obtain rfl := Except.ok.inj h
    simp
  | response statusCode content =>
    simp only [listMachineIds] at h
    by_cases hstatus : Is2xx statusCode
    · rw [if_pos hstatus] at h
      cases hdoc : loads content with
      | error e =>
        rw [hdoc] at h
        cases e with
        | recursionError => cases h
        | _ =>
          obtain rfl := Except.ok.inj h
          simp [hdoc]
      | ok doc =>
        simp only [hdoc] at h
        rcases exists_walk_iff.1 ⟨ids, h⟩ with rfl | rfl | ⟨machines, rfl, -⟩
        · obtain rfl := Except.ok.inj h
          simp [hdoc]
        · obtain rfl := Except.ok.inj h
          simp [hdoc]
        · rw [mem_matchIds h]
          simp [hdoc, hstatus]
    · rw [if_neg hstatus] at h
      obtain rfl := Except.ok.inj h
      simp [hstatus]

theorem exists_startEach_iff {replies : ℕ → Reply} {n : ℕ} {ids : List Json} :
    (∃ started, startEach takes replies n ids = .ok started) ↔ ∀ id ∈ ids, takes id = true := by
  induction ids generalizing n with
  | nil => simp [startEach]
  | cons id ids ih =>
    rw [List.forall_mem_cons, ← ih (n := n + 1)]
    simp only [startEach, post, bind, Except.bind, pure, Except.pure]
    cases takes id with
    | false => simp
    | true =>
      cases replies n <;> cases startEach takes replies (n + 1) ids <;> simp

theorem exists_wakeGroups_iff {outcomes : Outcomes} {groups : List ProcessGroup} :
    (∃ started, wakeGroups loads takes outcomes groups = .ok started) ↔
      ∀ group ∈ groups, Wakeable loads takes (groupName group) (outcomes.list group) := by
  induction groups with
  | nil => simp [wakeGroups]
  | cons group groups ih =>
    rw [List.forall_mem_cons, ← ih, Wakeable, ← exists_listMachineIds_iff]
    simp only [wakeGroups, bind, Except.bind, pure, Except.pure]
    cases hids : listMachineIds loads (groupName group) false (outcomes.list group) with
    | error e => simp
    | ok ids =>
      have htakes : (∃ started, startEach takes (outcomes.start group) 0 ids = .ok started) ↔
          ∀ statusCode content machines, outcomes.list group = .response statusCode content →
            Is2xx statusCode → loads content = .ok (.arr machines) → ∀ m ∈ machines,
            ∀ fields metadata id, view? m = some (fields, metadata) →
            Selected (groupName group) false fields metadata →
            Json.get fields (ofString "id") = some id → takes id = true := by
        rw [exists_startEach_iff]
        constructor
        · intro h statusCode content machines hreply hstatus hdoc m hm fields metadata id hview hsel
            hid
          exact h id ((mem_listMachineIds hids).2 ⟨statusCode, content, machines, hreply, hstatus,
            hdoc, m, hm, fields, metadata, hview, hsel, hid⟩)
        · intro h id hmem
          obtain ⟨statusCode, content, machines, hreply, hstatus, hdoc, m, hm, fields, metadata,
            hview, hsel, hid⟩ := (mem_listMachineIds hids).1 hmem
          exact h statusCode content machines hreply hstatus hdoc m hm fields metadata id hview hsel
            hid
      rw [← htakes]
      dsimp only
      cases startEach takes (outcomes.start group) 0 ids with
      | error e => simp
      | ok started => cases wakeGroups loads takes outcomes groups <;> simp

end Startup

/-! ## A well-formed list -/

/-- The id of a machine, where it is a text. -/
def idOf (machine : Json) : Option PyStr := (view? machine).bind fun v => textAt v.1 "id"

/-- The metadata of the machine names the process group. -/
def Named (group : PyStr) (machine : Json) : Bool :=
  (view? machine).any fun v => textAt v.2 "fly_process_group" = some group

/-- The machine is started. -/
def isStarted (machine : Json) : Bool :=
  (view? machine).any fun v => textAt v.1 "state" = some (ofString "started")

/-- Every machine has an id, and no two have the same. -/
def WellFormed (machines : List Json) : Prop :=
  (∀ m ∈ machines, (idOf m).isSome = true) ∧ (machines.filterMap idOf).Nodup

theorem get_of_textAt {fields : JsonObject} {key : String} {text : PyStr}
    (h : textAt fields key = some text) : Json.get fields (ofString key) = some (.str text) := by
  unfold textAt at h
  split at h
  · rename_i hget
    rw [hget, Option.some.inj h]
  · cases h

/-- **Listing a well-formed list** is filtering it. -/
theorem matchIds_of_wellFormed (group : PyStr) (started : Bool) {machines : List Json}
    (h : ∀ m ∈ machines, (idOf m).isSome = true) : matchIds group started machines =
      .ok (((machines.filter fun m => Named group m && isStarted m == started).filterMap idOf).map
        .str) := by
  induction machines with
  | nil => rfl
  | cons m machines ih =>
    rw [List.forall_mem_cons] at h
    obtain ⟨id, hid⟩ := Option.isSome_iff_exists.1 h.1
    obtain ⟨⟨fields, metadata⟩, hview, htext⟩ := Option.bind_eq_some_iff.1 hid
    have hmatch : matchId group started m =
        .ok (if Named group m && isStarted m == started then some (.str id) else none) := by
      rw [matchId_eq, hview]
      simp only [get_of_textAt htext, Named, isStarted, hview, Option.any_some]
      by_cases hsel : Selected group started fields metadata
      · rw [if_pos hsel, if_pos]
        simpa [Selected] using hsel
      · rw [if_neg hsel, if_neg]
        simpa [Selected] using hsel
    rw [matchIds, hmatch, ih h.2]
    cases hp : Named group m && isStarted m == started with
    | false => simp [hp, bind, Except.bind, pure, Except.pure]
    | true => simp [hp, hid, bind, Except.bind, pure, Except.pure]

/-- The machines of a list are those of the group that are started and those that are not. -/
theorem listMachineIds_perm {loads : Bytes → Except Receivers.LoadsError Json} {statusCode : ℕ}
    {content : Bytes} {machines : List Json} (group : PyStr) (hstatus : Is2xx statusCode)
    (hdoc : loads content = .ok (.arr machines)) (h : WellFormed machines) :
    ∃ on off, listMachineIds loads group true (.response statusCode content) = .ok on ∧
      listMachineIds loads group false (.response statusCode content) = .ok off ∧
      on.Disjoint off ∧
      (on ++ off).Perm (((machines.filter (Named group)).filterMap idOf).map .str) := by
  have hlist : ∀ started, listMachineIds loads group started (.response statusCode content) =
      matchIds group started machines := fun started => by
    rw [listMachineIds, if_pos hstatus, hdoc]
    rfl
  have hsplit : ((machines.filter fun m => Named group m && isStarted m == true) ++
      machines.filter fun m => Named group m && isStarted m == false).Perm
      (machines.filter (Named group)) := by
    have := List.filter_append_perm (fun m => isStarted m == true) (machines.filter (Named group))
    simp only [List.filter_filter] at this
    refine (List.Perm.of_eq ?_).trans this
    congr 1
    · exact List.filter_congr fun m _ => Bool.and_comm _ _
    · exact List.filter_congr fun m _ => by cases Named group m <;> cases isStarted m <;> rfl
  have hperm := (hsplit.filterMap idOf).map Json.str
  rw [List.filterMap_append, List.map_append] at hperm
  refine ⟨_, _, (hlist true).trans (matchIds_of_wellFormed group true h.1),
    (hlist false).trans (matchIds_of_wellFormed group false h.1), ?_, hperm⟩
  have hnodup : (((machines.filter (Named group)).filterMap idOf).map Json.str).Nodup := by
    refine List.Nodup.map (fun s s' hs => Json.str.inj hs) ?_
    exact h.2.sublist (List.filter_sublist.filterMap idOf)
  exact List.disjoint_of_nodup_append (hperm.nodup_iff.2 hnodup)

/-- **The client and the startup**: listing returns exactly on the replies that can be walked,
startup completes exactly where both lists can be walked and httpx takes the ids of the machines to
start, and a well-formed list is split into the started machines of the group and the others. -/
theorem listing_and_startup (loads : Bytes → Except Receivers.LoadsError Json)
    (takes : Json → Bool) :
    (∀ group started reply, (∃ ids, listMachineIds loads group started reply = .ok ids) ↔
      Walkable loads group started reply) ∧
    (∀ flyApiToken flyAppName outcomes,
      (∃ ids, startup loads takes flyApiToken flyAppName outcomes = .ok ids) ↔
        (flyApiToken ≠ [] → flyAppName ≠ [] → ∀ group ∈ processGroups,
          Wakeable loads takes (groupName group) (outcomes.list group))) ∧
    ∀ group statusCode content machines, Is2xx statusCode → loads content = .ok (.arr machines) →
      WellFormed machines → ∃ on off,
        listMachineIds loads group true (.response statusCode content) = .ok on ∧
        listMachineIds loads group false (.response statusCode content) = .ok off ∧
        on.Disjoint off ∧
        (on ++ off).Perm (((machines.filter (Named group)).filterMap idOf).map .str) := by
  refine ⟨fun _ _ _ => exists_listMachineIds_iff, fun token app outcomes => ?_,
    fun group _ _ _ hstatus hdoc h => listMachineIds_perm group hstatus hdoc h⟩
  unfold startup
  by_cases hset : token ≠ [] ∧ app ≠ []
  · rw [if_pos hset, exists_wakeGroups_iff]
    exact ⟨fun h _ _ => h, fun h => h hset.1 hset.2⟩
  · rw [if_neg hset]
    exact iff_of_true ⟨[], rfl⟩ fun htoken happ => absurd ⟨htoken, happ⟩ hset

/-- A machine as the API reports it. -/
def machineDocument (m : FlyMachine) : Json :=
  .obj [(ofString "id", .str (PyStr.ofNat m.id)),
    (ofString "state", .str (if m.started then ofString "started" else ofString "stopped")),
    (ofString "config", .obj [(ofString "metadata",
      .obj [(ofString "fly_process_group", .str (groupName m.group))])])]

/-- A list of two machines of the producer, of which one runs. -/
def twoMachines : List Json :=
  [machineDocument ⟨1, .producer, true, none⟩, machineDocument ⟨2, .producer, false, none⟩]

/-- The machine to start and the running one are both listed. -/
theorem listing_and_startup_two : ∃ on off,
    listMachineIds (Receivers.loadsOnly (.arr twoMachines)) (ofString "producer") true
      (.response 200 (Receivers.spelled (.arr twoMachines))) = .ok on ∧
    listMachineIds (Receivers.loadsOnly (.arr twoMachines)) (ofString "producer") false
      (.response 200 (Receivers.spelled (.arr twoMachines))) = .ok off ∧
    on.Disjoint off ∧ (on ++ off).length = 2 := by
  obtain ⟨on, off, hon, hoff, hdisjoint, hperm⟩ :=
    (listing_and_startup (Receivers.loadsOnly (.arr twoMachines)) fun _ => true).2.2
      (ofString "producer") 200 (Receivers.spelled (.arr twoMachines)) twoMachines (by decide)
      (Receivers.loadsOnly_spelled _) ⟨by decide, by decide +kernel⟩
  exact ⟨on, off, hon, hoff, hdisjoint, hperm.length_eq.trans (by decide +kernel)⟩

/-- The report of a machine whose `config` is `null`. -/
def nullConfig : Json :=
  .arr [.obj [(ofString "id", .str (ofString "1")), (ofString "config", .null)]]

/-- **A machine whose `config` is `null` takes the app down at startup.** -/
theorem not_startup : ∃ (loads : Bytes → Except Receivers.LoadsError Json) (outcomes : Outcomes),
    listMachineIds loads (ofString "producer") false (outcomes.list .producer) =
      .error .attributeError ∧
    startup loads (fun _ => true) (ofString "token") (ofString "hookit") outcomes =
      .error .attributeError := by
  have hlist : ∀ group, listMachineIds (Receivers.loadsOnly nullConfig) group false
      (.response 200 (Receivers.spelled nullConfig)) = .error .attributeError := by
    intro group
    rw [listMachineIds, if_pos (by decide), Receivers.loadsOnly_spelled]
    rfl
  refine ⟨Receivers.loadsOnly nullConfig,
    ⟨fun _ => .response 200 (Receivers.spelled nullConfig), fun _ _ => .response 200 []⟩,
    hlist _, ?_⟩
  rw [startup, if_pos (by decide), processGroups, wakeGroups, hlist]
  rfl

/-! ## The model of the watchdog -/

/-- **The watchdog's list of machines is what the client makes of the API's report.** -/
theorem matchIds_machines (s : Watchdog.State) (group : ProcessGroup) (started : Bool) :
    matchIds (groupName group) started (s.machines.map machineDocument) =
      .ok ((s.listMachineIds group started).map fun id => .str (PyStr.ofNat id)) := by
  have hid : ∀ m, idOf (machineDocument m) = some (PyStr.ofNat m.id) := fun m => rfl
  have hnamed : ∀ m, Named (groupName group) (machineDocument m) = decide (m.group = group) := by
    intro m
    show decide (some (groupName m.group) = some (groupName group)) = _
    cases m.group <;> cases group <;> decide
  have hstarted : ∀ m, isStarted (machineDocument m) = m.started := by
    intro m
    show decide (some (if m.started then ofString "started" else ofString "stopped") =
      some (ofString "started")) = _
    cases m.started <;> decide
  rw [matchIds_of_wellFormed _ _ (List.forall_mem_map.2 fun m _ => by rw [hid]; rfl),
    List.filter_map, List.filterMap_map, Watchdog.State.listMachineIds]
  have hfilter : s.machines.filter ((fun m => Named (groupName group) m && isStarted m == started) ∘
      machineDocument) =
        s.machines.filter fun m => m.group = group ∧ m.started = started := by
    refine List.filter_congr fun m _ => ?_
    simp [hnamed, hstarted, Bool.beq_eq_decide_eq]
  rw [hfilter]
  have hmap : idOf ∘ machineDocument = some ∘ fun m => PyStr.ofNat m.id := funext hid
  rw [hmap, List.filterMap_eq_map, List.map_map, List.map_map]
  rfl

end Hookit.Fly
