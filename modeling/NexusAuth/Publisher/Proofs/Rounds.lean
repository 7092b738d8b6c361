import NexusAuth.Publisher.Model

/-!
# What a round asks and sends

The traces of the functions of a round, from the inside out.  A round either ends
before it has sent the index to anyone, or it went through both phases; the second
case is an `IndexRound`, which names the parts of the trace.
-/

namespace NexusAuth.Publisher

open Std (ExtTreeMap)
open NexusAuth.Authority NexusAuth.Lib.Interaction NexusAuth.Lib.OrderedMap NexusAuth.Lib.Results
open NexusAuth.Lib.Words NexusAuth.Raft

variable {ctx : Context} {key : String} {value : Bytes} {events : List NodeEvent}

/-! ## One record -/

def Attempts (key : String) (value : Bytes) (ids : List Nat) (sends : List NodeEvent) : Prop :=
  ∀ e ∈ sends, ∃ id ∈ ids, ∃ answer, e = ⟨.addKey id key value, answer⟩

def Acknowledged (key : String) (value : Bytes) (ids : List Nat) (sends : List NodeEvent) : Prop :=
  ∀ id ∈ ids, ∃ result, ⟨.addKey id key value, .ok result⟩ ∈ sends

theorem addKeyAttempts_yields {conn attempts : Nat} {last : SidecarError}
    {result : Except SidecarError Unit}
    (h : Yields (addKeyAttempts conn key value attempts last) events result) :
    (∀ e ∈ events, ∃ answer, e = ⟨.addKey conn key value, answer⟩) ∧
      (result = .ok () → ∃ r, ⟨.addKey conn key value, .ok r⟩ ∈ events) := by
  induction attempts generalizing last events with
  | zero =>
      obtain ⟨rfl, rfl⟩ := h
      simp
  | succ attempts ih =>
      obtain ⟨answer, rest, rfl, hrest⟩ := yields_request_bind.mp h
      cases answer with
      | ok r =>
          obtain ⟨rfl, rfl⟩ := hrest
          simp
      | error e =>
          obtain ⟨hevents, hok⟩ := ih hrest
          constructor
          · intro e' he'
            rcases List.mem_cons.mp he' with rfl | he'
            · exact ⟨_, rfl⟩
            · exact hevents e' he'
          · intro hresult
            obtain ⟨r, hr⟩ := hok hresult
            exact ⟨r, List.mem_cons_of_mem _ hr⟩

theorem publishTo_yields {ids : List Nat} {firstError result : Option String}
    (h : Yields (publishTo key value ids firstError) events result) :
    Attempts key value ids events ∧
      (result = none → firstError = none ∧ Acknowledged key value ids events) := by
  induction ids generalizing firstError events with
  | nil =>
      obtain ⟨rfl, rfl⟩ := h
      simp [Attempts, Acknowledged]
  | cons id ids ih =>
      obtain ⟨first, second, sent, rfl, hfirst, hsecond⟩ := yields_bind.mp h
      obtain ⟨hthis, hacked⟩ := addKeyAttempts_yields hfirst
      have hsplit : ∀ next, Yields (publishTo key value ids next) second result →
          Attempts key value (id :: ids) (first ++ second) ∧
            (result = none → next = none ∧ Acknowledged key value ids second) := by
        intro next hnext
        obtain ⟨hattempts, hrest⟩ := ih hnext
        refine ⟨fun e he => ?_, hrest⟩
        rcases List.mem_append.mp he with he | he
        · obtain ⟨answer, rfl⟩ := hthis e he
          exact ⟨id, List.mem_cons_self, answer, rfl⟩
        · obtain ⟨id', hid', answer, rfl⟩ := hattempts e he
          exact ⟨id', List.mem_cons_of_mem _ hid', answer, rfl⟩
      cases sent with
      | ok _ =>
          obtain ⟨hattempts, hrest⟩ := hsplit firstError hsecond
          refine ⟨hattempts, fun hnone => ?_⟩
          obtain ⟨hfirstError, hlater⟩ := hrest hnone
          refine ⟨hfirstError, fun id' hid' => ?_⟩
          rcases List.mem_cons.mp hid' with rfl | hid'
          · obtain ⟨r, hr⟩ := hacked rfl
            exact ⟨r, List.mem_append_left _ hr⟩
          · obtain ⟨r, hr⟩ := hlater id' hid'
            exact ⟨r, List.mem_append_right _ hr⟩
      | error e =>
          -- from here on the first error is known, so the loop cannot end without one
          obtain ⟨hattempts, hrest⟩ := hsplit _ hsecond
          refine ⟨hattempts, fun hnone => ?_⟩
          have hcontra := (hrest hnone).1
          cases firstError <;> simp at hcontra

theorem publish_yields {result : Except PublishError Unit}
    (h : Yields (publish key value) events result) :
    ∃ ids sends, events = ⟨.connections, ids⟩ :: sends ∧ Attempts key value ids sends ∧
      (result = .ok () → Acknowledged key value ids sends) := by
  obtain ⟨ids, rest, rfl, hrest⟩ := yields_request_bind.mp h
  obtain ⟨sends, last, found, rfl, hsends, hlast⟩ := yields_bind.mp hrest
  obtain ⟨hattempts, hacked⟩ := publishTo_yields hsends
  cases found with
  | none =>
      obtain ⟨rfl, rfl⟩ := hlast
      exact ⟨ids, sends, by simp, hattempts, fun _ => (hacked rfl).2⟩
  | some message =>
      obtain ⟨rfl, rfl⟩ := hlast
      exact ⟨ids, sends, by simp, hattempts, fun hok => by simp at hok⟩

/-! ## Questions

What the two phases ask, for a property `P` of the questions that their records decide. -/

section Questions

variable {P : NodeCall → Prop}

theorem asks_addKeyAttempts {conn : Nat} (hadd : P (.addKey conn key value)) (attempts : Nat)
    (last : SidecarError) : Asks P (addKeyAttempts conn key value attempts last) := by
  induction attempts generalizing last with
  | zero => trivial
  | succ attempts ih =>
      refine ⟨hadd, fun answer => ?_⟩
      cases answer with
      | ok result => trivial
      | error e => exact ih e

theorem asks_publishTo (hadd : ∀ conn, P (.addKey conn key value)) (ids : List Nat)
    (firstError : Option String) : Asks P (publishTo key value ids firstError) := by
  induction ids generalizing firstError with
  | nil => trivial
  | cons id ids ih =>
      refine (asks_addKeyAttempts (hadd id) _ _).bind fun result => ?_
      cases result with
      | ok u => exact ih firstError
      | error e => exact ih _

theorem asks_publish (hconnections : P .connections) (hadd : ∀ conn, P (.addKey conn key value)) :
    Asks P (publish key value) := by
  refine ⟨hconnections, fun clients => (asks_publishTo hadd clients none).bind fun result => ?_⟩
  cases result with
  | none => trivial
  | some message => trivial

theorem asks_publishAll (hconnections : P .connections) {records : List Pending}
    (hadd : ∀ record ∈ records, ∀ conn, P (.addKey conn record.key record.value)) :
    Asks P (publishAll records) := by
  induction records with
  | nil => trivial
  | cons record records ih =>
      obtain ⟨hrecord, hrecords⟩ := List.forall_mem_cons.mp hadd
      refine (asks_publish hconnections hrecord).bind fun result => ?_
      cases result with
      | error e => trivial
      | ok u => exact ih hrecords

theorem asks_authority (hseed : P .authoritySeed) : Asks P ctx.authority := by
  refine ⟨hseed, fun seed => ?_⟩
  cases seed with
  | none => trivial
  | some seed => trivial

theorem asks_publishWhitelists_of {services : List ServiceRow} (hseed : P .authoritySeed)
    (hconnections : P .connections)
    (hadd : ∀ signer pending, prepareWhitelists ctx.crypto signer services = .ok pending →
      ∀ record ∈ pending, ∀ conn, P (.addKey conn record.key record.value)) :
    Asks P (publishWhitelists ctx services) := by
  refine (asks_authority hseed).bind fun authority => ?_
  cases authority with
  | none => trivial
  | some signer =>
      dsimp only
      split
      · trivial
      · rename_i pending hpending
        refine (asks_publishAll hconnections (hadd signer pending hpending)).bind fun result => ?_
        cases result with
        | error e => trivial
        | ok u => trivial

theorem asks_publishIndex_of {indexVersion expiresAt : Nat} {services : List ServiceEntry}
    (hseed : P .authoritySeed) (hconnections : P .connections)
    (hadd : ∀ signer bytes, Signer.signIndex ctx.crypto signer ⟨indexVersion, expiresAt, services⟩ =
      .ok bytes → ∀ key conn, P (.addKey conn key bytes)) :
    Asks P (publishIndex ctx indexVersion expiresAt services) := by
  refine (asks_authority hseed).bind fun authority => ?_
  cases authority with
  | none => trivial
  | some signer =>
      dsimp only
      split
      · trivial
      · rename_i bytes hbytes
        exact asks_publish hconnections (hadd signer bytes hbytes _)

end Questions

/-! ## The whitelists -/

structure Prepared (crypto : Crypto) (signer : Signer) (service : ServiceRow) (record : Pending) :
    Prop where
  value : signer.signWhitelist crypto service.name ⟨service.version, service.members⟩ =
    .ok record.value
  key : signer.serviceKey crypto service.name = .ok record.key
  entry : record.entry =
    ⟨service.name, contentHash crypto.toPrimitives record.value, record.value.length⟩

theorem prepareWhitelists_eq_ok {crypto : Crypto} {signer : Signer} {services : List ServiceRow}
    {pending : List Pending} (h : prepareWhitelists crypto signer services = .ok pending) :
    List.Forall₂ (Prepared crypto signer) services pending := by
  induction services generalizing pending with
  | nil =>
      obtain rfl := Except.ok.inj h
      exact .nil
  | cons service services ih =>
      simp only [prepareWhitelists, bind_eq_ok, mapError_eq_ok, pure_eq_ok] at h
      obtain ⟨value, hvalue, key, hkey, later, hlater, rfl⟩ := h
      exact .cons ⟨hvalue, hkey, rfl⟩ (ih hlater)

theorem exists_prepared_of_mem {crypto : Crypto} {signer : Signer} {services : List ServiceRow}
    {pending : List Pending} (h : List.Forall₂ (Prepared crypto signer) services pending)
    {record : Pending} (hmem : record ∈ pending) :
    ∃ service ∈ services, Prepared crypto signer service record := by
  induction h with
  | nil => simp at hmem
  | cons hrecord _ ih =>
      rcases List.mem_cons.mp hmem with rfl | hmem
      · exact ⟨_, List.mem_cons_self, hrecord⟩
      · obtain ⟨service, hservice, h⟩ := ih hmem
        exact ⟨service, List.mem_cons_of_mem _ hservice, h⟩

theorem names_of_prepared {crypto : Crypto} {signer : Signer} {rows : List ServiceRow}
    {pending : List Pending} (h : List.Forall₂ (Prepared crypto signer) rows pending) :
    (pending.map Pending.entry).map ServiceEntry.name = rows.map ServiceRow.name := by
  induction h with
  | nil => rfl
  | cons hrecord _ ih => simp [hrecord.entry, ih]

theorem names_serviceRows (services : BTreeMap String ServiceState) :
    (serviceRows services).map ServiceRow.name = services.keys := by
  simp [serviceRows, ← ExtTreeMap.map_fst_toList_eq_keys, Function.comp_def]

theorem mem_serviceRows {services : BTreeMap String ServiceState} {row : ServiceRow}
    (h : row ∈ serviceRows services) : ∃ service, services[row.name]? = some service ∧
      row.version = service.version ∧ row.members = service.members.toList := by
  obtain ⟨⟨name, service⟩, hmem, rfl⟩ := List.mem_map.mp h
  exact ⟨service, ExtTreeMap.mem_toList_iff_getElem?_eq_some.mp hmem, rfl, rfl⟩

theorem Prepared.key_ne_indexKey {crypto : Crypto} {signer : Signer} {service : ServiceRow}
    {record : Pending} (h : Prepared crypto signer service record) :
    record.key ≠ indexKey crypto signer.network :=
  serviceKey_ne_indexKey h.key

/-- Every record was sent to the connections of a list of its own, and all of them
acknowledged it. -/
inductive Delivered : List Pending → List NodeEvent → Prop
  | nil : Delivered [] []
  | cons {record : Pending} {records : List Pending} {ids : List Nat} {sends rest : List NodeEvent}
      (attempts : Attempts record.key record.value ids sends)
      (acknowledged : Acknowledged record.key record.value ids sends)
      (later : Delivered records rest) :
      Delivered (record :: records) (⟨.connections, ids⟩ :: (sends ++ rest))

def Concerns (records : List Pending) (e : NodeEvent) : Prop :=
  (∃ ids, e = ⟨.connections, ids⟩) ∨
    ∃ record ∈ records, ∃ id answer, e = ⟨.addKey id record.key record.value, answer⟩

theorem Concerns.mono {records records' : List Pending} {e : NodeEvent} (h : Concerns records e)
    (hsub : ∀ record ∈ records, record ∈ records') : Concerns records' e := by
  rcases h with h | ⟨record, hmem, h⟩
  · exact .inl h
  · exact .inr ⟨record, hsub record hmem, h⟩

theorem publishAll_yields {records : List Pending} {result : Except PublishError Unit}
    (h : Yields (publishAll records) events result) :
    (∀ e ∈ events, Concerns records e) ∧ (result = .ok () → Delivered records events) := by
  induction records generalizing events with
  | nil =>
      obtain ⟨rfl, rfl⟩ := h
      exact ⟨by simp, fun _ => .nil⟩
  | cons record records ih =>
      obtain ⟨first, second, sent, rfl, hfirst, hsecond⟩ := yields_bind.mp h
      obtain ⟨ids, sends, rfl, hattempts, hacked⟩ := publish_yields hfirst
      have hhead : ∀ e ∈ (⟨.connections, ids⟩ :: sends : List NodeEvent),
          Concerns (record :: records) e := by
        intro e he
        rcases List.mem_cons.mp he with rfl | he
        · exact .inl ⟨ids, rfl⟩
        · obtain ⟨id, _, answer, rfl⟩ := hattempts e he
          exact .inr ⟨record, List.mem_cons_self, id, answer, rfl⟩
      cases sent with
      | error e =>
          obtain ⟨rfl, rfl⟩ := hsecond
          exact ⟨by simpa using hhead, fun hok => by simp at hok⟩
      | ok _ =>
          obtain ⟨hconcerns, hdelivered⟩ := ih hsecond
          constructor
          · intro e he
            rcases List.mem_append.mp he with he | he
            · exact hhead e he
            · exact (hconcerns e he).mono fun record' => List.mem_cons_of_mem record
          · exact fun hok => .cons hattempts (hacked rfl) (hdelivered hok)

theorem authority_yields {signer : Option Signer} (h : Yields ctx.authority events signer) :
    ∃ seed, events = [⟨.authoritySeed, seed⟩] ∧
      ∀ s, signer = some s → seed = some s.seed ∧ s.network = ctx.network := by
  obtain ⟨seed, rest, rfl, hrest⟩ := yields_request_bind.mp h
  cases seed with
  | none =>
      obtain ⟨rfl, rfl⟩ := hrest
      exact ⟨none, rfl, by simp⟩
  | some seed =>
      obtain ⟨rfl, rfl⟩ := hrest
      refine ⟨some seed, rfl, fun s hs => ?_⟩
      simp only [Signer.fromSeed] at hs
      split at hs
      · simp [Except.toOption] at hs
      · obtain rfl := Option.some.inj hs
        exact ⟨rfl, rfl⟩

def Unfinished (ctx : Context) : NodeEvent → Prop
  | ⟨.addKey _ key _, _⟩ => key ≠ indexKey ctx.crypto ctx.network
  | ⟨.record (.success _ _), _⟩ => False
  | _ => True

theorem publishWhitelists_yields {services : List ServiceRow}
    {result : Except PublishError (List ServiceEntry)}
    (h : Yields (publishWhitelists ctx services) events result) :
    ∃ seed lists, events = ⟨.authoritySeed, seed⟩ :: lists ∧ (∀ e ∈ lists, Unfinished ctx e) ∧
      ∀ entries, result = .ok entries → ∃ s pending, seed = some s ∧
        prepareWhitelists ctx.crypto ⟨s, ctx.network⟩ services = .ok pending ∧
        Delivered pending lists ∧ entries = pending.map Pending.entry := by
  obtain ⟨first, lists, signer, rfl, hfirst, hlists⟩ := yields_bind.mp h
  obtain ⟨seed, rfl, hseed⟩ := authority_yields hfirst
  refine ⟨seed, lists, rfl, ?_⟩
  cases signer with
  | none =>
      obtain ⟨rfl, rfl⟩ := hlists
      simp
  | some signer =>
      obtain ⟨rfl, hnetwork⟩ := hseed signer rfl
      obtain ⟨seed, network⟩ := signer
      obtain rfl : network = ctx.network := hnetwork
      cases hprepare : prepareWhitelists ctx.crypto ⟨seed, ctx.network⟩ services with
      | error e =>
          simp only [hprepare] at hlists
          obtain ⟨rfl, rfl⟩ := hlists
          simp
      | ok pending =>
          simp only [hprepare] at hlists
          obtain ⟨sends, last, sent, rfl, hsends, hlast⟩ := yields_bind.mp hlists
          obtain ⟨hconcerns, hdelivered⟩ := publishAll_yields hsends
          have hunfinished : ∀ e ∈ sends, Unfinished ctx e := by
            intro e he
            rcases hconcerns e he with ⟨ids, rfl⟩ | ⟨record, hmem, id, answer, rfl⟩
            · trivial
            · obtain ⟨service, _, hrecord⟩ :=
                exists_prepared_of_mem (prepareWhitelists_eq_ok hprepare) hmem
              exact hrecord.key_ne_indexKey
          cases sent with
          | error e =>
              obtain ⟨rfl, rfl⟩ := hlast
              exact ⟨by simpa using hunfinished, by simp⟩
          | ok _ =>
              obtain ⟨rfl, rfl⟩ := hlast
              refine ⟨by simpa using hunfinished, ?_⟩
              rintro _ ⟨⟩
              exact ⟨seed, pending, rfl, hprepare, by simpa using hdelivered rfl, rfl⟩

/-! ## The index -/

theorem publishIndex_yields {version expiresAt : Nat} {entries : List ServiceEntry}
    {result : Except PublishError Unit}
    (h : Yields (publishIndex ctx version expiresAt entries) events result) :
    ∃ seed rest, events = ⟨.authoritySeed, seed⟩ :: rest ∧
      ((rest = [] ∧ ∃ e, result = .error e) ∨
        ∃ s bytes ids sends, seed = some s ∧
          Signer.signIndex ctx.crypto ⟨s, ctx.network⟩ ⟨version, expiresAt, entries⟩ = .ok bytes ∧
          rest = ⟨.connections, ids⟩ :: sends ∧
          Attempts (indexKey ctx.crypto ctx.network) bytes ids sends ∧
          (result = .ok () → Acknowledged (indexKey ctx.crypto ctx.network) bytes ids sends)) := by
  obtain ⟨first, rest, signer, rfl, hfirst, hrest⟩ := yields_bind.mp h
  obtain ⟨seed, rfl, hseed⟩ := authority_yields hfirst
  refine ⟨seed, rest, rfl, ?_⟩
  cases signer with
  | none =>
      obtain ⟨rfl, rfl⟩ := hrest
      exact .inl ⟨rfl, _, rfl⟩
  | some signer =>
      obtain ⟨rfl, hnetwork⟩ := hseed signer rfl
      obtain ⟨seed, network⟩ := signer
      obtain rfl : network = ctx.network := hnetwork
      cases hsign : Signer.signIndex ctx.crypto ⟨seed, ctx.network⟩
        ⟨version, expiresAt, entries⟩ with
      | error e =>
          simp only [hsign] at hrest
          obtain ⟨rfl, rfl⟩ := hrest
          exact .inl ⟨rfl, _, rfl⟩
      | ok bytes =>
          simp only [hsign] at hrest
          obtain ⟨ids, sends, rfl, hattempts, hacked⟩ := publish_yields hrest
          exact .inr ⟨seed, bytes, ids, sends, rfl, hsign, rfl, hattempts, hacked⟩

/-! ## Rounds -/

def Quiet : NodeEvent → Prop
  | ⟨.connections, _⟩ => False
  | ⟨.addKey _ _ _, _⟩ => False
  | _ => True

def silent : NodeCall → Bool
  | .connections | .addKey _ _ _ | .record (.success _ _) => false
  | _ => true

theorem unfinished_of_silent {e : NodeEvent} (h : silent e.question = true) : Unfinished ctx e := by
  obtain ⟨question, answer⟩ := e
  cases question with
  | addKey conn key value => cases h
  | record entry =>
      cases entry with
      | success epoch at_ => cases h
      | failure epoch error at_ => trivial
  | _ => trivial

theorem quiet_of_silent {e : NodeEvent} (h : silent e.question = true) : Quiet e := by
  obtain ⟨question, answer⟩ := e
  cases question with
  | connections => cases h
  | addKey conn key value => cases h
  | _ => trivial

theorem unfinished_of_all_silent (h : events.all (fun e => silent e.question) = true) :
    ∀ e ∈ events, Unfinished ctx e :=
  fun e he => unfinished_of_silent (List.all_eq_true.mp h e he)

theorem quiet_of_all_silent (h : events.all (fun e => silent e.question) = true) :
    ∀ e ∈ events, Quiet e :=
  fun e he => quiet_of_silent (List.all_eq_true.mp h e he)

theorem unfinished_of_publishWhitelists {services : List ServiceRow}
    {result : Except PublishError (List ServiceEntry)}
    (h : Yields (publishWhitelists ctx services) events result) :
    ∀ e ∈ events, Unfinished ctx e := by
  obtain ⟨seed, lists, rfl, hlists, -⟩ := publishWhitelists_yields h
  exact List.forall_mem_cons.mpr ⟨trivial, hlists⟩

/-- A round that came to the index: what it signed, and the parts of its trace. -/
structure IndexRound (ctx : Context) where
  rows : List ServiceRow
  version : Nat
  expiresAt : Nat
  /-- The seeds that signed the whitelists and the index. -/
  seed : Bytes
  indexSeed : Bytes
  pending : List Pending
  value : Bytes
  /-- The list of connections that the index was sent to. -/
  ids : List Nat
  head : List NodeEvent
  lists : List NodeEvent
  between : List NodeEvent
  sends : List NodeEvent
  tail : List NodeEvent
  prepared : prepareWhitelists ctx.crypto ⟨seed, ctx.network⟩ rows = .ok pending
  delivered : Delivered pending lists
  signed : Signer.signIndex ctx.crypto ⟨indexSeed, ctx.network⟩
    ⟨version, expiresAt, pending.map Pending.entry⟩ = .ok value
  attempts : Attempts (indexKey ctx.crypto ctx.network) value ids sends
  quiet_head : ∀ e ∈ head, Quiet e
  quiet_between : ∀ e ∈ between, Quiet e
  quiet_tail : ∀ e ∈ tail, Quiet e

namespace IndexRound

variable (round : IndexRound ctx)

def before : List NodeEvent :=
  round.head ++ ⟨.authoritySeed, some round.seed⟩ :: round.lists ++ round.between ++
    [⟨.authoritySeed, some round.indexSeed⟩, ⟨.connections, round.ids⟩]

def trace : List NodeEvent := round.before ++ round.sends ++ round.tail

def preceded (pre : List NodeEvent) (quiet : ∀ e ∈ pre, Quiet e) : IndexRound ctx :=
  { round with
    head := pre ++ round.head
    quiet_head := fun e he => (List.mem_append.mp he).elim (quiet e) (round.quiet_head e) }

@[simp] theorem head_preceded (pre : List NodeEvent) (quiet : ∀ e ∈ pre, Quiet e) :
    (round.preceded pre quiet).head = pre ++ round.head := rfl

@[simp] theorem trace_preceded (pre : List NodeEvent) (quiet : ∀ e ∈ pre, Quiet e) :
    (round.preceded pre quiet).trace = pre ++ round.trace := by
  simp [trace, before, preceded]

end IndexRound

/-- A trace of both phases, with `between` in the middle and `tail` at the end, belongs to a round
that came to the index, unless it stopped before sending it. -/
theorem indexRound_of_phases {rows : List ServiceRow} {entries : List ServiceEntry}
    {version expiresAt : Nat} {whitelists index between tail : List NodeEvent}
    {sent : Except PublishError Unit}
    (hwhitelists : Yields (publishWhitelists ctx rows) whitelists (.ok entries))
    (hindex : Yields (publishIndex ctx version expiresAt entries) index sent)
    (hbetween : ∀ e ∈ between, Quiet e) (htail : ∀ e ∈ tail, Quiet e) :
    ((∀ e ∈ index, Unfinished ctx e) ∧ ∃ e, sent = .error e) ∨
      ∃ round : IndexRound ctx, round.trace = whitelists ++ between ++ index ++ tail ∧
        round.head = [] ∧ round.between = between ∧ round.tail = tail ∧ round.rows = rows ∧
        round.version = version ∧ round.expiresAt = expiresAt ∧
        (sent = .ok () →
          Acknowledged (indexKey ctx.crypto ctx.network) round.value round.ids round.sends) := by
  obtain ⟨seed, lists, rfl, _, hlists⟩ := publishWhitelists_yields hwhitelists
  obtain ⟨s, pending, rfl, hprepared, hdelivered, rfl⟩ := hlists entries rfl
  obtain ⟨indexSeed, rest, rfl, hrest⟩ := publishIndex_yields hindex
  rcases hrest with ⟨rfl, e, rfl⟩ | ⟨s', bytes, ids, sends, rfl, hsigned, rfl, hattempts, hacked⟩
  · exact .inl ⟨unfinished_of_all_silent rfl, e, rfl⟩
  · refine .inr ⟨{
      rows := rows, version := version, expiresAt := expiresAt, seed := s, indexSeed := s'
      pending := pending, value := bytes, ids := ids, head := [], lists := lists
      between := between, sends := sends, tail := tail, prepared := hprepared
      delivered := hdelivered, signed := hsigned, attempts := hattempts, quiet_head := by simp
      quiet_between := hbetween, quiet_tail := htail }, ?_, rfl, rfl, rfl, rfl, rfl, rfl, hacked⟩
    simp [IndexRound.trace, IndexRound.before]

inductive Concluded (round : IndexRound ctx) : Except PublishError PublishOutcome → Prop
  | published (at_ : Nat)
      (acknowledged :
        Acknowledged (indexKey ctx.crypto ctx.network) round.value round.ids round.sends)
      (tail : round.tail = [⟨.now, at_⟩, ⟨.record (.success round.version at_), ()⟩]) :
      Concluded round (.ok (.published round.version))
  | failed (at_ : Nat) (e : PublishError)
      (tail : round.tail =
        [⟨.now, at_⟩, ⟨.record (.failure (some round.version) e.message at_), ()⟩]) :
      Concluded round (.error e)

theorem Concluded.preceded {round : IndexRound ctx} {result : Except PublishError PublishOutcome}
    (h : Concluded round result) (pre : List NodeEvent) (quiet : ∀ e ∈ pre, Quiet e) :
    Concluded (round.preceded pre quiet) result := by
  cases h with
  | published at_ acknowledged tail => exact .published at_ acknowledged tail
  | failed at_ e tail => exact .failed at_ e tail

theorem failRound_yields {epoch : Nat} {message : String}
    {result : Except PublishError PublishOutcome}
    (h : Yields (failRound epoch message) events result) :
    ∃ at_, events = [⟨.now, at_⟩, ⟨.record (.failure (some epoch) message at_), ()⟩] ∧
      result = .error ⟨message⟩ := by
  obtain ⟨first, last, _, rfl, hfirst, rfl, rfl⟩ := yields_bind.mp h
  obtain ⟨at_, rest, rfl, _, _, rfl, rfl, _⟩ := yields_request_bind.mp hfirst
  exact ⟨at_, rfl, rfl⟩

theorem recordSuccess_yields {epoch : Nat} (h : Yields (recordSuccess epoch) events ()) :
    ∃ at_, events = [⟨.now, at_⟩, ⟨.record (.success epoch at_), ()⟩] := by
  obtain ⟨at_, rest, rfl, _, _, rfl, rfl, _⟩ := yields_request_bind.mp h
  exact ⟨at_, rfl⟩

def Withheld (ctx : Context) (events : List NodeEvent)
    (result : Except PublishError PublishOutcome) : Prop :=
  (∀ e ∈ events, Unfinished ctx e) ∧ ∀ epoch, result ≠ .ok (.published epoch)

theorem withheld_failRound {pre : List NodeEvent} {epoch : Nat} {message : String}
    {result : Except PublishError PublishOutcome}
    (h : Yields (failRound epoch message) events result) (hpre : ∀ e ∈ pre, Unfinished ctx e) :
    Withheld ctx (pre ++ events) result := by
  obtain ⟨at_, rfl, rfl⟩ := failRound_yields h
  refine ⟨fun e he => ?_, by simp⟩
  rcases List.mem_append.mp he with he | he
  · exact hpre e he
  · simp only [List.mem_cons, List.not_mem_nil, or_false] at he
    rcases he with rfl | rfl <;> trivial

theorem publishSnapshot_yields {state : PolicyState} {result : Except PublishError PublishOutcome}
    (h : Yields (publishSnapshot ctx state) events result) :
    Withheld ctx events result ∨
      ∃ round : IndexRound ctx, events = round.trace ∧ round.head = [] ∧
        round.between = [⟨.isLeader, true⟩] ∧ round.rows = serviceRows state.services ∧
        round.version = state.policyEpoch ∧ round.expiresAt = state.indexExpiresAt ∧
        Concluded round result := by
  obtain ⟨whitelists, rest, sent, rfl, hwhitelists, hrest⟩ := yields_bind.mp h
  have hunfinished : ∀ e ∈ whitelists, Unfinished ctx e :=
    unfinished_of_publishWhitelists hwhitelists
  cases sent with
  | error e => exact .inl (withheld_failRound hrest hunfinished)
  | ok entries =>
      obtain ⟨leads, later, rfl, hlater⟩ := yields_request_bind.mp hrest
      have hchecked : ∀ e ∈ whitelists ++ [⟨.isLeader, leads⟩], Unfinished ctx e :=
        List.forall_mem_append.mpr ⟨hunfinished, unfinished_of_all_silent rfl⟩
      cases leads with
      | false => exact .inl (by simpa using withheld_failRound hlater hchecked)
      | true =>
          obtain ⟨index, tail, sent, rfl, hindex, htail⟩ := yields_bind.mp hlater
          have hbetween : ∀ e ∈ ([⟨.isLeader, true⟩] : List NodeEvent), Quiet e :=
            quiet_of_all_silent rfl
          cases sent with
          | error e =>
              have hquiet : ∀ e ∈ tail, Quiet e := by
                obtain ⟨at_, rfl, _⟩ := failRound_yields htail
                exact quiet_of_all_silent rfl
              rcases indexRound_of_phases hwhitelists hindex hbetween hquiet with
                ⟨hunsent, _⟩ | ⟨round, htrace, hhead, hmiddle, hend, hrows, hversion, hexpires, _⟩
              · left
                have hall : ∀ e ∈ whitelists ++ [⟨.isLeader, true⟩] ++ index, Unfinished ctx e :=
                  fun e he => (List.mem_append.mp he).elim (hchecked e) (hunsent e)
                simpa using withheld_failRound htail hall
              · obtain ⟨at_, rfl, rfl⟩ := failRound_yields htail
                refine .inr ⟨round, by simp [htrace], hhead, hmiddle, hrows, hversion, hexpires, ?_⟩
                exact .failed at_ e (by rw [hend, hversion])
          | ok _ =>
              obtain ⟨report, last, _, rfl, hreport, rfl, rfl⟩ := yields_bind.mp htail
              obtain ⟨at_, rfl⟩ := recordSuccess_yields hreport
              have hquiet : ∀ e ∈ ([⟨.now, at_⟩, ⟨.record (.success state.policyEpoch at_), ()⟩] :
                  List NodeEvent), Quiet e := by simp [Quiet]
              rcases indexRound_of_phases hwhitelists hindex hbetween hquiet with
                ⟨_, e, he⟩ | ⟨round, htrace, hhead, hmiddle, hend, hrows, hversion,
                  hexpires, hacked⟩
              · simp at he
              · refine .inr ⟨round, by simp [htrace], hhead, hmiddle, hrows, hversion, hexpires, ?_⟩
                rw [← hversion]
                exact .published at_ (hacked rfl) (by rw [hend, hversion])

/-- A round in Raft mode ends before the index, or it sends the records of the last snapshot it
read, which is not older than the status says. -/
theorem publishState_yields {state : PolicyState} {result : Except PublishError PublishOutcome}
    (h : Yields (publishState ctx state) events result) :
    Withheld ctx events result ∨
      ∃ (round : IndexRound ctx) (status : PublishStatus), events = round.trace ∧
        round.head = [⟨.isLeader, true⟩, ⟨.status, status⟩] ∧ round.between = [⟨.isLeader, true⟩] ∧
        round.rows = serviceRows state.services ∧ round.version = state.policyEpoch ∧
        round.expiresAt = state.indexExpiresAt ∧ staleEpoch status state.policyEpoch = none ∧
        Concluded round result := by
  obtain ⟨leads, rest, rfl, hrest⟩ := yields_request_bind.mp h
  cases leads with
  | false =>
      obtain ⟨rfl, rfl⟩ := hrest
      exact .inl ⟨unfinished_of_all_silent rfl, by simp⟩
  | true =>
      obtain ⟨status, later, rfl, hlater⟩ := yields_request_bind.mp hrest
      have hchecks : ∀ e ∈ ([⟨.isLeader, true⟩, ⟨.status, status⟩] : List NodeEvent),
          Unfinished ctx e := unfinished_of_all_silent rfl
      cases hstale : staleEpoch status state.policyEpoch with
      | some last =>
          simp only [hstale] at hlater
          exact .inl (withheld_failRound hlater hchecks)
      | none =>
          simp only [hstale] at hlater
          split at hlater
          · exact .inl (withheld_failRound hlater hchecks)
          · rcases publishSnapshot_yields hlater with
              ⟨hunfinished, hresult⟩ | ⟨round, rfl, hhead, hbetween, hrows, hversion,
                hexpires, hend⟩
            · left
              refine ⟨fun e he => ?_, hresult⟩
              rcases List.mem_append.mp
                (show e ∈ [⟨.isLeader, true⟩, ⟨.status, status⟩] ++ later from he)
                with he | he
              · exact hchecks e he
              · exact hunfinished e he
            · right
              have hquiet : ∀ e ∈ ([⟨.isLeader, true⟩, ⟨.status, status⟩] : List NodeEvent),
                  Quiet e := quiet_of_all_silent rfl
              refine ⟨round.preceded _ hquiet, status, ?_, ?_, hbetween, hrows, hversion, hexpires,
                hstale, hend.preceded _ hquiet⟩
              · exact (round.trace_preceded _ hquiet).symm
              · rw [IndexRound.head_preceded, hhead, List.append_nil]

/-- The questions of a round in Raft mode before its second question for leadership; `state` is the
last snapshot among the answers. -/
structure Opening (first : List NodeEvent) (state : PolicyState) : Prop where
  quiet : ∀ e ∈ first, Quiet e
  records : records first = []
  snapshot : (snapshots first).getLast? = some state

structure RaftRound (ctx : Context) extends IndexRound ctx where
  first : List NodeEvent
  state : PolicyState
  status : PublishStatus
  opening : Opening first state
  head_eq : head = first ++ [⟨.isLeader, true⟩, ⟨.status, status⟩]
  between_eq : between = [⟨.isLeader, true⟩]
  rows_eq : rows = serviceRows state.services
  version_eq : version = state.policyEpoch
  expiresAt_eq : expiresAt = state.indexExpiresAt
  /-- The status was not ahead of the snapshot. -/
  fresh : staleEpoch status state.policyEpoch = none

theorem raftRound_of_opening (first : List NodeEvent) {state : PolicyState}
    {result : Except PublishError PublishOutcome} (hopening : Opening first state)
    (hfirst : ∀ e ∈ first, Unfinished ctx e)
    (h : Yields (publishState ctx state) events result) :
    Withheld ctx (first ++ events) result ∨
      ∃ round : RaftRound ctx, first ++ events = round.trace ∧
        Concluded round.toIndexRound result := by
  rcases publishState_yields h with ⟨hlater, hresult⟩ |
    ⟨round, status, rfl, hhead, hbetween, hrows, hversion, hexpires, hfresh, hend⟩
  · left
    exact ⟨fun e he => (List.mem_append.mp he).elim (hfirst e) (hlater e), hresult⟩
  · right
    refine ⟨{
      toIndexRound := round.preceded first hopening.quiet, first := first, state := state
      status := status, opening := hopening, head_eq := ?_, between_eq := hbetween
      rows_eq := hrows, version_eq := hversion, expiresAt_eq := hexpires, fresh := hfresh }, ?_, ?_⟩
    · rw [IndexRound.head_preceded, hhead]
    · exact (round.trace_preceded first hopening.quiet).symm
    · exact hend.preceded first hopening.quiet

theorem publishOnceRaft_yields {renew : Bool} {result : Except PublishError PublishOutcome}
    (h : Yields (publishOnceRaft ctx renew) events result) :
    Withheld ctx events result ∨
      ∃ round : RaftRound ctx, events = round.trace ∧ Concluded round.toIndexRound result := by
  obtain ⟨ready, rest₁, rfl, h₁⟩ := yields_request_bind.mp h
  cases ready with
  | false =>
      obtain ⟨rfl, rfl⟩ := h₁
      exact .inl ⟨unfinished_of_all_silent rfl, by simp⟩
  | true =>
      obtain ⟨leads, rest₂, rfl, h₂⟩ := yields_request_bind.mp h₁
      cases leads with
      | false =>
          obtain ⟨rfl, rfl⟩ := h₂
          exact .inl ⟨unfinished_of_all_silent rfl, by simp⟩
      | true =>
          obtain ⟨state, rest₃, rfl, h₃⟩ := yields_request_bind.mp h₂
          obtain ⟨now, rest₄, rfl, h₄⟩ := yields_request_bind.mp h₃
          split at h₄
          · obtain ⟨proposed, rest₅, rfl, h₅⟩ := yields_request_bind.mp h₄
            cases proposed with
            | error e =>
                have hopening : ∀ e' ∈ ([⟨.adminRaft, true⟩, ⟨.isLeader, true⟩,
                    ⟨.policySnapshot, state⟩, ⟨.now, now⟩,
                    ⟨.propose (.renewIndex (saturatingAdd64 now ctx.expiresSecs)), .error e⟩] :
                    List NodeEvent), Unfinished ctx e' := unfinished_of_all_silent rfl
                exact .inl (withheld_failRound h₅ hopening)
            | ok proposal =>
                obtain ⟨renewed, rest₆, rfl, h₆⟩ := yields_request_bind.mp h₅
                exact raftRound_of_opening [⟨.adminRaft, true⟩, ⟨.isLeader, true⟩,
                  ⟨.policySnapshot, state⟩, ⟨.now, now⟩, ⟨.propose _, .ok proposal⟩,
                  ⟨.policySnapshot, renewed⟩] ⟨quiet_of_all_silent rfl, rfl, rfl⟩
                  (unfinished_of_all_silent rfl) h₆
          · exact raftRound_of_opening [⟨.adminRaft, true⟩, ⟨.isLeader, true⟩,
              ⟨.policySnapshot, state⟩, ⟨.now, now⟩] ⟨quiet_of_all_silent rfl, rfl, rfl⟩
              (unfinished_of_all_silent rfl) h₄

def Reported (round : IndexRound ctx) (result : Except PublishError PublishOutcome) : Prop :=
  ∀ epoch, result = .ok (.published epoch) → epoch = round.version ∧
    Acknowledged (indexKey ctx.crypto ctx.network) round.value round.ids round.sends ∧
    ∃ at_, round.tail = [⟨.now, at_⟩, ⟨.record (.success round.version at_), ()⟩]

theorem Concluded.reported {round : IndexRound ctx} {result : Except PublishError PublishOutcome}
    (h : Concluded round result) : Reported round result := by
  cases h with
  | published at_ acknowledged tail =>
      rintro epoch ⟨⟩
      exact ⟨rfl, acknowledged, at_, tail⟩
  | failed at_ e tail =>
      intro epoch heq
      simp at heq

theorem publishOnceLegacy_yields {renew : Bool} {result : Except PublishError PublishOutcome}
    (h : Yields (publishOnceLegacy ctx renew) events result) :
    Withheld ctx events result ∨
      ∃ round : IndexRound ctx, events = round.trace ∧ Reported round result := by
  obtain ⟨renewal, rest₁, _, rfl, hrenewal, h₁⟩ := yields_bind.mp h
  have hrenewal : (∀ e ∈ renewal, Unfinished ctx e) ∧ ∀ e ∈ renewal, Quiet e := by
    cases renew with
    | false =>
        obtain ⟨rfl, _⟩ := hrenewal
        simp
    | true =>
        obtain ⟨version, _, rfl, rfl, _⟩ := yields_request_bind.mp hrenewal
        exact ⟨unfinished_of_all_silent rfl, quiet_of_all_silent rfl⟩
  obtain ⟨store, rest₂, rfl, h₂⟩ := yields_request_bind.mp h₁
  obtain ⟨now, rest₃, rfl, h₃⟩ := yields_request_bind.mp h₂
  obtain ⟨whitelists, rest₄, sent, rfl, hwhitelists, h₄⟩ := yields_bind.mp h₃
  have hopening : ∀ e ∈ renewal ++ [⟨.storeSnapshot, store⟩, ⟨.now, now⟩] ++ whitelists,
      Unfinished ctx e := by
    have hread : ∀ e ∈ renewal ++ [⟨.storeSnapshot, store⟩, ⟨.now, now⟩], Unfinished ctx e :=
      List.forall_mem_append.mpr ⟨hrenewal.1, unfinished_of_all_silent rfl⟩
    exact List.forall_mem_append.mpr ⟨hread, unfinished_of_publishWhitelists hwhitelists⟩
  cases sent with
  | error e =>
      obtain ⟨rfl, rfl⟩ := h₄
      exact .inl ⟨by simpa using hopening, by simp⟩
  | ok entries =>
      obtain ⟨index, tail, sent, rfl, hindex, htail⟩ := yields_bind.mp h₄
      have hhead : ∀ e ∈ renewal ++ [⟨.storeSnapshot, store⟩, ⟨.now, now⟩], Quiet e :=
        List.forall_mem_append.mpr ⟨hrenewal.2, quiet_of_all_silent rfl⟩
      have hbetween : ∀ e ∈ ([] : List NodeEvent), Quiet e := by simp
      have htailQuiet : ∀ e ∈ tail, Quiet e := by
        cases sent with
        | error e =>
            obtain ⟨rfl, rfl⟩ := htail
            simp
        | ok _ =>
            obtain ⟨report, last, _, rfl, hreport, rfl, rfl⟩ := yields_bind.mp htail
            obtain ⟨at_, rfl⟩ := recordSuccess_yields hreport
            simp [Quiet]
      rcases indexRound_of_phases hwhitelists hindex hbetween htailQuiet with
        ⟨hunsent, e, rfl⟩ | ⟨round, htrace, hround, _, hend, _, hversion, _, hacked⟩
      · obtain ⟨rfl, rfl⟩ := htail
        have hall : ∀ e' ∈ renewal ++ [⟨.storeSnapshot, store⟩, ⟨.now, now⟩] ++ whitelists ++ index,
            Unfinished ctx e' :=
          fun e' he' => (List.mem_append.mp he').elim (hopening e') (hunsent e')
        exact .inl ⟨by simpa using hall, by simp⟩
      · refine .inr ⟨round.preceded _ hhead, ?_, ?_⟩
        · rw [IndexRound.trace_preceded, htrace]
          simp
        · intro epoch heq
          cases sent with
          | error e =>
              obtain ⟨rfl, rfl⟩ := htail
              simp at heq
          | ok _ =>
              obtain ⟨report, last, _, rfl, hreport, rfl, rfl⟩ := yields_bind.mp htail
              obtain ⟨at_, rfl⟩ := recordSuccess_yields hreport
              have hepoch : epoch = round.version := by simpa [hversion] using heq.symm
              refine ⟨hepoch, hacked rfl, at_, ?_⟩
              have htail : round.tail =
                  [⟨.now, at_⟩, ⟨.record (.success store.indexVersion at_), ()⟩] := by
                simpa using hend
              rw [← hversion] at htail
              exact htail

/-- A round in either mode either has not sent the index, or it is an `IndexRound`. -/
theorem publishOnce_yields {renew : Bool} {result : Except PublishError PublishOutcome}
    (h : Yields (publishOnce ctx renew) events result) :
    Withheld ctx events result ∨
      ∃ round : IndexRound ctx, events = round.trace ∧ Reported round result := by
  obtain ⟨empty, rest, rfl, hrest⟩ := yields_request_bind.mp h
  have hquiet : ∀ e ∈ ([⟨.isEmpty, empty⟩] : List NodeEvent), Quiet e := quiet_of_all_silent rfl
  have hstep : Withheld ctx rest result ∨
      (∃ round : IndexRound ctx, rest = round.trace ∧ Reported round result) := by
    split at hrest
    · obtain ⟨rfl, rfl⟩ := hrest
      exact .inl ⟨by simp, by simp⟩
    · split at hrest
      · rcases publishOnceRaft_yields hrest with hwithheld | ⟨round, htrace, hend⟩
        · exact .inl hwithheld
        · exact .inr ⟨round.toIndexRound, htrace, hend.reported⟩
      · exact publishOnceLegacy_yields hrest
  rcases hstep with ⟨hunfinished, hresult⟩ | ⟨round, rfl, hreported⟩
  · left
    refine ⟨fun e he => ?_, hresult⟩
    rcases List.mem_cons.mp he with rfl | he
    · trivial
    · exact hunfinished e he
  · exact .inr ⟨round.preceded _ hquiet, (round.trace_preceded _ hquiet).symm, hreported⟩

/-! ## Where the records of a round are -/

theorem eq_append_of_not_mem_left {α : Type} {a b pre post : List α} {e : α}
    (h : a ++ b = pre ++ e :: post) (ha : e ∉ a) :
    ∃ rest, pre = a ++ rest ∧ b = rest ++ e :: post := by
  rcases List.append_eq_append_iff.mp h with ⟨rest, hpre, hb⟩ | ⟨rest, hpre, hb⟩
  · exact ⟨rest, hpre, hb⟩
  · cases rest with
    | nil => exact ⟨[], by simpa using hpre.symm, by simpa using hb.symm⟩
    | cons x rest =>
        obtain ⟨rfl, _⟩ := List.cons.inj hb
        exact absurd (hpre ▸ List.mem_append_right pre List.mem_cons_self) ha

theorem eq_append_of_not_mem_right {α : Type} {a b pre post : List α} {e : α}
    (h : a ++ b = pre ++ e :: post) (hb : e ∉ b) :
    ∃ rest, a = pre ++ e :: rest ∧ post = rest ++ b := by
  rcases List.append_eq_append_iff.mp h with ⟨rest, hpre, heq⟩ | ⟨rest, hpre, heq⟩
  · exact absurd (heq ▸ List.mem_append_right rest List.mem_cons_self) hb
  · cases rest with
    | nil =>
        rw [List.nil_append] at heq
        exact absurd (heq ▸ List.mem_cons_self) hb
    | cons x rest =>
        obtain ⟨rfl, rfl⟩ := List.cons.inj heq
        exact ⟨rest, hpre, rfl⟩

theorem Delivered.acknowledged {records : List Pending} (h : Delivered records events)
    {id : Nat} {answer : Except SidecarError AddKeyResult}
    (hsent : ⟨.addKey id key value, answer⟩ ∈ events) :
    (∃ record ∈ records, record.key = key ∧ record.value = value) ∧
      ∃ result, ⟨.addKey id key value, .ok result⟩ ∈ events := by
  induction h with
  | nil => simp at hsent
  | @cons record records ids sends rest attempts acknowledged _ ih =>
      rcases List.mem_cons.mp hsent with hsent | hsent
      · simp at hsent
      rcases List.mem_append.mp hsent with hsent | hsent
      · obtain ⟨id', hid', answer', heq⟩ := attempts _ hsent
        obtain ⟨rfl, rfl, rfl⟩ : id = id' ∧ key = record.key ∧ value = record.value := by
          simpa using congrArg Event.question heq
        obtain ⟨result, hresult⟩ := acknowledged id hid'
        exact ⟨⟨record, List.mem_cons_self, rfl, rfl⟩, result, by simp [hresult]⟩
      · obtain ⟨⟨record', hmem, hrecord⟩, result, hresult⟩ := ih hsent
        exact ⟨⟨record', List.mem_cons_of_mem _ hmem, hrecord⟩, result, by simp [hresult]⟩

theorem Delivered.split {records : List Pending} (h : Delivered records events) {record : Pending}
    (hmem : record ∈ records) :
    ∃ pre ids post, events = pre ++ ⟨.connections, ids⟩ :: post ∧
      Acknowledged record.key record.value ids events := by
  induction h with
  | nil => simp at hmem
  | @cons head records ids sends rest _ acknowledged _ ih =>
      rcases List.mem_cons.mp hmem with rfl | hmem
      · refine ⟨[], ids, sends ++ rest, rfl, fun id hid => ?_⟩
        obtain ⟨result, hresult⟩ := acknowledged id hid
        exact ⟨result, List.mem_cons_of_mem _ (List.mem_append_left rest hresult)⟩
      · obtain ⟨pre, ids', post, hrest, hacked⟩ := ih hmem
        refine ⟨⟨.connections, ids⟩ :: (sends ++ pre), ids', post, by simp [hrest],
          fun id hid => ?_⟩
        obtain ⟨result, hresult⟩ := hacked id hid
        exact ⟨result, List.mem_cons_of_mem _ (List.mem_append_right sends hresult)⟩

theorem Delivered.not_quiet {records : List Pending} (h : Delivered records events) :
    ∀ e ∈ events, ¬Quiet e := by
  induction h with
  | nil => simp
  | @cons head records ids sends rest attempts _ _ ih =>
      intro e he
      rcases List.mem_cons.mp he with rfl | he
      · exact id
      · rcases List.mem_append.mp he with he | he
        · obtain ⟨id', _, answer, rfl⟩ := attempts e he
          exact id
        · exact ih e he

namespace IndexRound

variable (round : IndexRound ctx)

theorem unfinished_lists : ∀ e ∈ round.lists, Unfinished ctx e := by
  rintro ⟨question, answer⟩ he
  cases question with
  | addKey id key value =>
      obtain ⟨⟨record, hmem, rfl, rfl⟩, _⟩ := round.delivered.acknowledged he
      obtain ⟨service, _, hrecord⟩ :=
        exists_prepared_of_mem (prepareWhitelists_eq_ok round.prepared) hmem
      exact hrecord.key_ne_indexKey
  | record entry => exact absurd trivial (round.delivered.not_quiet _ he)
  | _ => trivial

theorem mem_before_of_mem_lists {e : NodeEvent} (h : e ∈ round.lists) : e ∈ round.before := by
  simp [before, h]

/-- What is sent under another key than that of the index is a whitelist. -/
theorem mem_lists_of_whitelist {id : Nat} {answer : Except SidecarError AddKeyResult}
    (hsent : ⟨.addKey id key value, answer⟩ ∈ round.trace)
    (hkey : key ≠ indexKey ctx.crypto ctx.network) :
    ⟨.addKey id key value, answer⟩ ∈ round.lists := by
  simp only [trace, before, List.append_assoc, List.cons_append, List.nil_append, List.mem_append,
    List.mem_cons] at hsent
  rcases hsent with hmem | hmem | hmem | hmem | hmem | hmem | hmem | hmem
  · exact absurd hmem (round.quiet_head _)
  · simp at hmem
  · exact hmem
  · exact absurd hmem (round.quiet_between _)
  · simp at hmem
  · simp at hmem
  · obtain ⟨id', _, answer', heq⟩ := round.attempts _ hmem
    obtain ⟨_, rfl, _⟩ : id = id' ∧ key = indexKey ctx.crypto ctx.network ∧
        value = round.value := by
      simpa using congrArg Event.question heq
    exact absurd rfl hkey
  · exact absurd hmem (round.quiet_tail _)

theorem index_send {pre post : List NodeEvent} {id : Nat} {v : Bytes}
    {answer : Except SidecarError AddKeyResult}
    (h : round.trace = pre ++ ⟨.addKey id (indexKey ctx.crypto ctx.network) v, answer⟩ :: post) :
    ∃ early late, round.sends =
        early ++ ⟨.addKey id (indexKey ctx.crypto ctx.network) v, answer⟩ :: late ∧
      pre = round.before ++ early ∧ post = late ++ round.tail ∧ v = round.value ∧
      id ∈ round.ids := by
  have htail : ⟨.addKey id (indexKey ctx.crypto ctx.network) v, answer⟩ ∉ round.tail :=
    fun hmem => round.quiet_tail _ hmem
  have hbefore : ⟨.addKey id (indexKey ctx.crypto ctx.network) v, answer⟩ ∉ round.before := by
    intro hmem
    simp only [before, List.append_assoc, List.cons_append, List.mem_append, List.mem_cons,
      List.not_mem_nil, or_false] at hmem
    rcases hmem with hmem | hmem | hmem | hmem | hmem | hmem
    · exact round.quiet_head _ hmem
    · simp at hmem
    · exact round.unfinished_lists _ hmem rfl
    · exact round.quiet_between _ hmem
    · simp at hmem
    · simp at hmem
  obtain ⟨rest, hrest, rfl⟩ := eq_append_of_not_mem_right h htail
  obtain ⟨early, rfl, hsends⟩ := eq_append_of_not_mem_left hrest hbefore
  obtain ⟨id', hid', answer', heq⟩ := round.attempts _ (hsends ▸ List.mem_append_right early
    List.mem_cons_self)
  obtain ⟨rfl, rfl⟩ : id = id' ∧ v = round.value := by
    simpa using congrArg Event.question heq
  exact ⟨early, rest, hsends, rfl, rfl, rfl, hid'⟩

end IndexRound

end NexusAuth.Publisher
