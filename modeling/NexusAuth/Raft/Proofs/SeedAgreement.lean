import NexusAuth.Raft.Proofs.Seeds
import NexusAuth.Raft.SeedChannel

/-!
# Leader and target agree on the seed

Neither an acknowledgement nor a request to drop the seed says which instruction it
belongs to, and an envelope can be opened any number of times.  The leader's latest
instruction has its effect, and keeps it, as long as nothing of an earlier instruction
is handed over and no handler of an earlier message takes a step.
-/

namespace NexusAuth.Raft

open NexusAuth.Authority NexusAuth.Lib NexusAuth.Lib.Network NexusAuth.Lib.OrderedMap
  NexusAuth.Lib.Results

variable {channel : SeedChannel} {view : Option NodeId} {io : Option String}
  {holder updated : SeedHolder} {seed : Option Bytes} {message : SeedMessage}
  {instruction : SeedInstruction}
  {w : SeedWorld}

/-! ## Single messages -/

/-- A handler that is not interrupted does what `accept_seed` and `accept_seed_drop` do. -/
theorem accept_in_steps (channel : SeedChannel) (view : Option NodeId) (io : Option String)
    (holder : SeedHolder) (message : SeedMessage) :
    channel.accept view io holder message = (channel.check view message).bind fun seed =>
      ((holder.changeFile seed io).mapError SeedError.text).map fun changed =>
        { changed with memory := seed } := by
  cases message with
  | delivery envelope =>
      simp only [SeedChannel.accept, SeedChannel.check, acceptSeed]
      cases openSeed channel.crypto channel.target view envelope with
      | error e => rfl
      | ok seed =>
          cases isValidNetworkName channel.target.network <;> cases io <;> rfl
  | drop request =>
      simp only [SeedChannel.accept, SeedChannel.check, acceptSeedDrop]
      cases verifyDropRequest channel.crypto channel.target view request <;> cases io <;> rfl

theorem changeFile_eq_ok (h : holder.changeFile seed io = .ok updated) :
    updated = { holder with file := seed } := by
  cases seed <;> cases io <;> cases h <;> rfl

theorem accept_of_check (holder : SeedHolder) (h : channel.check view message = .ok seed) :
    channel.accept view none holder message = .ok ⟨seed, seed⟩ := by
  rw [accept_in_steps, h]
  cases seed <;> rfl

theorem check_of_accept (h : channel.accept view io holder message = .ok updated) :
    channel.check view message = .ok updated.memory := by
  rw [accept_in_steps] at h
  obtain ⟨seed, hcheck, h⟩ := bind_eq_ok.mp h
  obtain ⟨changed, -, rfl⟩ := map_eq_ok.mp h
  exact hcheck

theorem signedMessage_of_check (h : channel.check view message = .ok seed) :
    channel.signedMessage message = true := by
  have haccept := accept_of_check .empty h
  cases message with
  | delivery envelope =>
      rw [SeedChannel.accept] at haccept
      obtain ⟨seed, hopen, -⟩ := acceptSeed_eq_ok haccept
      obtain ⟨-, -, hsigned, -⟩ := openSeed_iff.mp hopen
      exact isOk_eq_true.mpr ⟨(), verifySigned_eq_ok.mpr hsigned⟩
  | drop request =>
      rw [SeedChannel.accept] at haccept
      obtain ⟨hverify, -⟩ := acceptSeedDrop_eq_ok haccept
      exact isOk_eq_true.mpr
        ⟨(), verifySigned_eq_ok.mpr (verifyDropRequest_iff.mp hverify).2.2⟩

theorem prepare_deliver {random : SealRandom}
    (h : channel.prepare (.deliver random) = .ok message) :
    ∃ envelope, sealSeed channel.crypto channel.leader.identity channel.leader.nodeId
      channel.leader.clusterId channel.leader.network channel.target.nodeId channel.entry
      channel.seed random = .ok envelope ∧ message = .delivery envelope := by
  obtain ⟨envelope, henvelope, rfl⟩ := map_eq_ok.mp h
  exact ⟨envelope, mapError_eq_ok.mp henvelope, rfl⟩

theorem prepare_drop (h : channel.prepare .drop = .ok message) :
    ∃ request, signDropRequest channel.crypto channel.leader.identity channel.leader.nodeId
      channel.leader.clusterId channel.target.nodeId channel.entry = .ok request ∧
      message = .drop request := by
  obtain ⟨request, hrequest, rfl⟩ := map_eq_ok.mp h
  exact ⟨request, mapError_eq_ok.mp hrequest, rfl⟩

theorem seed_of_check (hprepare : channel.prepare instruction = .ok message)
    (h : channel.check view message = .ok seed) : seed = instruction.seed channel := by
  have haccept := accept_of_check .empty h
  cases instruction with
  | deliver random =>
      obtain ⟨envelope, hseal, rfl⟩ := prepare_deliver hprepare
      rw [SeedChannel.accept] at haccept
      obtain ⟨opened, hopen, hholds⟩ := acceptSeed_eq_ok haccept
      obtain ⟨-, -, -, hdecrypt⟩ := openSeed_iff.mp hopen
      rw [decryptSeed_sealSeed channel.lawful channel.seed_length channel.exchangeKey hseal]
        at hdecrypt
      cases hdecrypt
      exact congrArg SeedHolder.memory hholds
  | drop =>
      obtain ⟨request, -, rfl⟩ := prepare_drop hprepare
      rw [SeedChannel.accept] at haccept
      exact congrArg SeedHolder.memory (acceptSeedDrop_eq_ok haccept).2

theorem ok_of_acknowledge {crypto : Crypto} {node : SeedNode} {sender : NodeId}
    {result : Except String SeedHolder} {ack : SeedAck}
    (h : acknowledge crypto node sender result = .ok ack) : ack.ok = result.isOk := by
  simp only [acknowledge, mapError_eq_ok, signAck, bind_eq_ok, pure_eq_ok] at h
  obtain ⟨_, -, rfl⟩ := h
  rfl

theorem concludeInstruction_eq_ok {ack : SeedAck}
    (h : concludeInstruction channel.crypto channel.leader channel.target.nodeId ack = .ok ()) :
    ack.ok = true ∧ channel.signedAck ack = true := by
  rw [concludeInstruction, mapError_eq_ok, verifyAck] at h
  split at h
  · cases h
  · obtain ⟨_, hsigned, hok⟩ := bind_eq_ok.mp h
    split at hok
    · rename_i hack
      exact ⟨hack, isOk_eq_true.mpr ⟨_, hsigned⟩⟩
    · cases hok

/-! ## What one event does -/

theorem mem_answer {number : Nat} {sender : NodeId} {result : Except String SeedHolder}
    {a : Nat × SeedAck} (h : a ∈ (w.answer channel number sender result).acks) :
    a ∈ w.acks ∨ a.1 = number ∧ a.2.ok = result.isOk := by
  rcases List.mem_append.mp h with hold | hnew
  · exact Or.inl hold
  · right
    cases hack : acknowledge channel.crypto channel.target sender result with
    | error e => simp [hack, Except.toOption] at hnew
    | ok ack =>
        obtain rfl : a = (number, ack) := by simpa [hack, Except.toOption] using hnew
        exact ⟨rfl, ok_of_acknowledge hack⟩

/-- What the target does with a delivery: either it refuses it, or a handler starts for a
message on the wire. -/
theorem receive_cases (channel : SeedChannel) (w : SeedWorld) (view : Option NodeId)
    (delivery : Delivery (Nat × SeedMessage)) :
    let t := w.step channel (.receive view delivery)
    (t.issued = w.issued ∧ t.messages = w.messages ∧ t.confirmed = w.confirmed ∧
      t.holder = w.holder) ∧
    ((t.running = w.running ∧ ∀ a ∈ t.acks, a.2.ok = true → a ∈ w.acks) ∨
      ∃ m ∈ w.messages, ∃ seed,
        delivery.message (fun m => channel.signedMessage m.2) w.messages = some m ∧
        channel.check view m.2 = .ok seed ∧
        t.running = w.running ++ [⟨m.1, m.2.sender, seed, false⟩] ∧ t.acks = w.acks) := by
  intro t
  have ht : t = w.step channel (.receive view delivery) := rfl
  rw [SeedWorld.step] at ht
  split at ht
  · rw [ht]
    exact ⟨⟨rfl, rfl, rfl, rfl⟩, Or.inl ⟨rfl, fun a ha _ => ha⟩⟩
  · rename_i number message hdelivery
    split at ht
    · rw [ht]
      refine ⟨⟨rfl, rfl, rfl, rfl⟩, Or.inl ⟨rfl, fun a ha hok => ?_⟩⟩
      refine (mem_answer ha).resolve_right fun h => ?_
      rw [h.2] at hok
      cases hok
    · rename_i seed hcheck
      rw [ht]
      refine ⟨⟨rfl, rfl, rfl, rfl⟩,
        Or.inr ⟨(number, message), ?_, seed, hdelivery, hcheck, rfl, rfl⟩⟩
      rcases Delivery.message_cases hdelivery with hsent | hforged
      · exact hsent
      · rw [signedMessage_of_check hcheck] at hforged
        cases hforged

/-- What a step of a handler does: nothing to what the target holds, or it changes the file, or
it changes the memory and acknowledges. -/
theorem advance_cases (channel : SeedChannel) (w : SeedWorld) (index : Nat) (io : Option String) :
    let t := w.step channel (.advance index io)
    (t.issued = w.issued ∧ t.messages = w.messages ∧ t.confirmed = w.confirmed) ∧
    ((t.holder = w.holder ∧ (∀ handler ∈ t.running, handler ∈ w.running) ∧
        ∀ a ∈ t.acks, a.2.ok = true → a ∈ w.acks) ∨
      ∃ handler, w.running[index]? = some handler ∧
        ((t.holder = { w.holder with file := handler.seed } ∧ t.acks = w.acks ∧
            ∀ other ∈ t.running, other ∈ w.running ∨ other = { handler with filed := true }) ∨
          (handler.filed = true ∧ t.holder = { w.holder with memory := handler.seed } ∧
            (∀ other ∈ t.running, other ∈ w.running) ∧
            ∀ a ∈ t.acks, a ∈ w.acks ∨ a.1 = handler.number))) := by
  intro t
  have ht : t = w.step channel (.advance index io) := rfl
  have hothers : ∀ handler ∈ w.running.eraseIdx index, handler ∈ w.running :=
    fun _ => List.mem_of_mem_eraseIdx
  rw [SeedWorld.step] at ht
  split at ht
  · rw [ht]
    exact ⟨⟨rfl, rfl, rfl⟩, Or.inl ⟨rfl, fun _ h => h, fun _ h _ => h⟩⟩
  · rename_i handler hhandler
    split at ht
    · rename_i hfiled
      rw [ht]
      refine ⟨⟨rfl, rfl, rfl⟩,
        Or.inr ⟨handler, hhandler, Or.inr ⟨hfiled, rfl, hothers, fun a ha => ?_⟩⟩⟩
      exact (mem_answer ha).imp id And.left
    · split at ht
      · rw [ht]
        refine ⟨⟨rfl, rfl, rfl⟩, Or.inl ⟨rfl, hothers, fun a ha hok => ?_⟩⟩
        refine (mem_answer ha).resolve_right fun h => ?_
        rw [h.2] at hok
        cases hok
      · rename_i holder hchange
        rw [ht]
        refine ⟨⟨rfl, rfl, rfl⟩, Or.inr ⟨handler, hhandler,
          Or.inl ⟨changeFile_eq_ok hchange, rfl, fun other hother => ?_⟩⟩⟩
        exact List.mem_or_eq_of_mem_set hother

/-- What an acknowledgement does: it confirms the latest instruction only if it is a
positive one on the wire. -/
theorem conclude_cases (channel : SeedChannel) (w : SeedWorld) (index : Nat)
    (delivery : Delivery (Nat × SeedAck)) :
    let t := w.step channel (.conclude index delivery)
    (t.issued = w.issued ∧ t.messages = w.messages ∧ t.acks = w.acks ∧ t.running = w.running ∧
      t.holder = w.holder) ∧
    (t.confirmed = w.confirmed ∨
      w.waiting[index]? = some w.issued ∧ ∃ m ∈ w.acks,
        delivery.message (fun m => channel.signedAck m.2) w.acks = some m ∧ m.2.ok = true) := by
  intro t
  have ht : t = w.step channel (.conclude index delivery) := rfl
  rw [SeedWorld.step] at ht
  split at ht
  · rename_i number label ack hwaiting hdelivery
    rw [ht]
    refine ⟨⟨rfl, rfl, rfl, rfl, rfl⟩, ?_⟩
    by_cases hlatest : number = w.issued
    · cases hresult : concludeInstruction channel.crypto channel.leader channel.target.nodeId
          ack with
      | error e => exact Or.inl (by simp [Except.isOk, Except.toBool])
      | ok value =>
          obtain ⟨hok, hsigned⟩ := concludeInstruction_eq_ok hresult
          refine Or.inr ⟨hlatest ▸ hwaiting, (label, ack), ?_, hdelivery, hok⟩
          rcases Delivery.message_cases hdelivery with hsent | hforged
          · exact hsent
          · rw [hsigned] at hforged
            cases hforged
    · exact Or.inl (by simp [hlatest])
  · rw [ht]
    exact ⟨⟨rfl, rfl, rfl, rfl, rfl⟩, Or.inl rfl⟩

/-! ## Numbers -/

/-- Nothing on the wire or at work, except for refusals, has a number beyond the latest one. -/
structure SeedWorld.Numbered (w : SeedWorld) : Prop where
  messages : ∀ m ∈ w.messages, m.1 ≤ w.issued
  running : ∀ handler ∈ w.running, handler.number ≤ w.issued
  acks : ∀ a ∈ w.acks, a.2.ok = true → a.1 ≤ w.issued

theorem numbered_step (h : w.Numbered) (event : SeedEvent) : (w.step channel event).Numbered := by
  cases event with
  | instruct instruction =>
      have hrunning : ∀ handler ∈ w.running, handler.number ≤ w.issued + 1 :=
        fun handler hh => (h.running handler hh).trans (Nat.le_succ _)
      have hacks : ∀ a ∈ w.acks, a.2.ok = true → a.1 ≤ w.issued + 1 :=
        fun a ha hok => (h.acks a ha hok).trans (Nat.le_succ _)
      rw [SeedWorld.step]
      split
      · exact ⟨fun m hm => (h.messages m hm).trans (Nat.le_succ _), hrunning, hacks⟩
      · refine ⟨fun m hm => ?_, hrunning, hacks⟩
        rcases List.mem_append.mp hm with hold | hnew
        · exact (h.messages m hold).trans (Nat.le_succ _)
        · rw [List.mem_singleton.mp hnew]
  | receive view delivery =>
      obtain ⟨⟨hissued, hmessages, -, -⟩, hcases⟩ := receive_cases channel w view delivery
      rcases hcases with ⟨hrunning, hacks⟩ | ⟨m, hm, seed, -, -, hrunning, hacks⟩
      · refine ⟨by rw [hissued, hmessages]; exact h.messages,
          by rw [hissued, hrunning]; exact h.running, fun a ha hok => ?_⟩
        rw [hissued]
        exact h.acks a (hacks a ha hok) hok
      · refine ⟨by rw [hissued, hmessages]; exact h.messages, fun handler hhandler => ?_,
          by rw [hissued, hacks]; exact h.acks⟩
        rw [hissued]
        rw [hrunning] at hhandler
        rcases List.mem_append.mp hhandler with hold | hnew
        · exact h.running handler hold
        · rw [List.mem_singleton.mp hnew]
          exact h.messages m hm
  | advance index io =>
      obtain ⟨⟨hissued, hmessages, -⟩, hcases⟩ := advance_cases channel w index io
      refine ⟨by rw [hissued, hmessages]; exact h.messages, fun other hother => ?_,
        fun a ha hok => ?_⟩
      · rw [hissued]
        obtain ⟨-, hrunning, -⟩ | ⟨handler, hhandler, ⟨-, -, hrunning⟩ | ⟨-, -, hrunning, -⟩⟩ :=
          hcases
        · exact h.running other (hrunning other hother)
        · rcases hrunning other hother with hold | rfl
          · exact h.running other hold
          · exact h.running handler (List.mem_of_getElem? hhandler)
        · exact h.running other (hrunning other hother)
      · rw [hissued]
        obtain ⟨-, -, hacks⟩ | ⟨handler, hhandler, ⟨-, hacks, -⟩ | ⟨-, -, -, hacks⟩⟩ := hcases
        · exact h.acks a (hacks a ha hok) hok
        · exact h.acks a (hacks ▸ ha) hok
        · rcases hacks a ha with hold | hnew
          · exact h.acks a hold hok
          · rw [hnew]
            exact h.running handler (List.mem_of_getElem? hhandler)
  | conclude index delivery =>
      obtain ⟨⟨hissued, hmessages, hacks, hrunning, -⟩, -⟩ :=
        conclude_cases channel w index delivery
      exact ⟨by rw [hissued, hmessages]; exact h.messages,
        by rw [hissued, hrunning]; exact h.running, by rw [hissued, hacks]; exact h.acks⟩

theorem numbered_after (holder : SeedHolder) (events : List SeedEvent) (k : Nat) :
    (SeedWorld.after channel holder events k).Numbered :=
  Runs.invariant ⟨by simp [SeedWorld.start], by simp [SeedWorld.start], by simp [SeedWorld.start]⟩
    (fun _ _ h => numbered_step h _) k

/-! ## The time of one instruction -/

/-- `instruction` is the latest one, its handlers bring about what it intends, and once it is
acknowledged the target holds that. -/
structure SeedWorld.Serving (channel : SeedChannel) (instruction : SeedInstruction)
    (w : SeedWorld) : Prop where
  sent : ∀ m ∈ w.messages, m.1 = w.issued → channel.prepare instruction = .ok m.2
  running : ∀ handler ∈ w.running, handler.number = w.issued →
    handler.seed = instruction.seed channel ∧
      (handler.filed = true → w.holder.file = instruction.seed channel)
  acked : ∀ a ∈ w.acks, a.2.ok = true → a.1 = w.issued → w.holder = instruction.intended channel
  confirmed : w.confirmed = true → w.holder = instruction.intended channel

theorem serving_instruct (h : w.Numbered) (instruction : SeedInstruction) :
    (w.step channel (.instruct instruction)).Serving channel instruction := by
  -- what there was before has smaller numbers
  have hrunning : ∀ handler ∈ w.running, handler.number ≠ w.issued + 1 := by
    intro handler hhandler
    have := h.running handler hhandler
    omega
  have hacks : ∀ a ∈ w.acks, a.2.ok = true → a.1 ≠ w.issued + 1 := by
    intro a ha hok
    have := h.acks a ha hok
    omega
  have hmessages : ∀ m ∈ w.messages, m.1 ≠ w.issued + 1 := by
    intro m hm
    have := h.messages m hm
    omega
  rw [SeedWorld.step]
  split
  · exact ⟨fun m hm heq => absurd heq (hmessages m hm),
      fun handler hh heq => absurd heq (hrunning handler hh),
      fun a ha hok heq => absurd heq (hacks a ha hok), fun hconfirmed => by cases hconfirmed⟩
  · rename_i message hprepare
    refine ⟨fun m hm heq => ?_, fun handler hh heq => absurd heq (hrunning handler hh),
      fun a ha hok heq => absurd heq (hacks a ha hok), fun hconfirmed => by cases hconfirmed⟩
    rcases List.mem_append.mp hm with hold | hnew
    · exact absurd heq (hmessages m hold)
    · rw [List.mem_singleton.mp hnew, hprepare]

theorem serving_receive (h : w.Serving channel instruction)
    {delivery : Delivery (Nat × SeedMessage)}
    (hcurrent : w.Current channel (.receive view delivery)) :
    (w.step channel (.receive view delivery)).Serving channel instruction := by
  obtain ⟨⟨hissued, hmessages, hconfirmed, hholder⟩, hcases⟩ :=
    receive_cases channel w view delivery
  refine ⟨by rw [hissued, hmessages]; exact h.sent, fun handler hhandler => ?_, fun a ha hok => ?_,
    by rw [hconfirmed, hholder]; exact h.confirmed⟩
  · rw [hissued, hholder]
    obtain ⟨hrunning, -⟩ | ⟨m, hm, seed, hdelivery, hcheck, hrunning, -⟩ := hcases
    · exact h.running handler (hrunning ▸ hhandler)
    · rw [hrunning] at hhandler
      rcases List.mem_append.mp hhandler with hold | hnew
      · exact h.running handler hold
      · rw [List.mem_singleton.mp hnew]
        intro _
        refine ⟨seed_of_check (h.sent m hm (hcurrent m hm hdelivery)) hcheck, fun hfiled => ?_⟩
        cases hfiled
  · rw [hissued, hholder]
    obtain ⟨-, hacks⟩ | ⟨m, hm, seed, -, -, -, hacks⟩ := hcases
    · exact h.acked a (hacks a ha hok) hok
    · exact h.acked a (hacks ▸ ha) hok

theorem serving_advance (h : w.Serving channel instruction) {index : Nat}
    (hcurrent : w.Current channel (.advance index io)) :
    (w.step channel (.advance index io)).Serving channel instruction := by
  obtain ⟨⟨hissued, hmessages, hconfirmed⟩, hcases⟩ := advance_cases channel w index io
  have hsent : ∀ m ∈ (w.step channel (.advance index io)).messages,
      m.1 = (w.step channel (.advance index io)).issued →
        channel.prepare instruction = .ok m.2 := by
    rw [hissued, hmessages]
    exact h.sent
  obtain ⟨hholder, hrunning, hacks⟩ | ⟨handler, hhandler, hcases⟩ := hcases
  · refine ⟨hsent, fun other hother => ?_,
      fun a ha hok => ?_, by rw [hconfirmed, hholder]; exact h.confirmed⟩
    · rw [hissued, hholder]
      exact h.running other (hrunning other hother)
    · rw [hissued, hholder]
      exact h.acked a (hacks a ha hok) hok
  -- the handler is one of this instruction, so it sets what the instruction intends
  obtain ⟨hseed, hfile⟩ := h.running handler (List.mem_of_getElem? hhandler)
    (hcurrent handler hhandler)
  have hkept : ∀ holder : SeedHolder, holder = instruction.intended channel →
      { holder with file := handler.seed } = instruction.intended channel := by
    rintro holder rfl
    rw [hseed]
    rfl
  obtain ⟨hholder, hacks, hrunning⟩ | ⟨hfiled, hholder, hrunning, -⟩ := hcases
  · refine ⟨hsent, fun other hother => ?_, fun a ha hok heq => ?_, fun hc => ?_⟩
    · rw [hissued, hholder]
      intro heq
      rcases hrunning other hother with hold | rfl
      · exact ⟨(h.running other hold heq).1, fun _ => hseed⟩
      · exact ⟨hseed, fun _ => hseed⟩
    · rw [hholder]
      exact hkept _ (h.acked a (hacks ▸ ha) hok (heq.trans hissued))
    · rw [hholder]
      exact hkept _ (h.confirmed (hconfirmed ▸ hc))
  · have hintended : (w.step channel (.advance index io)).holder =
        instruction.intended channel := by
      rw [hholder]
      change SeedHolder.mk w.holder.file handler.seed = _
      rw [hfile hfiled, hseed]
      rfl
    refine ⟨hsent, fun other hother => ?_, fun _ _ _ _ => hintended, fun _ => hintended⟩
    rw [hissued, hintended]
    exact fun heq => ⟨(h.running other (hrunning other hother) heq).1, fun _ => rfl⟩

theorem serving_step (h : w.Serving channel instruction) {event : SeedEvent}
    (hevent : event.isInstruction = false) (hcurrent : w.Current channel event) :
    (w.step channel event).Serving channel instruction := by
  cases event with
  | instruct other => cases hevent
  | receive view delivery => exact serving_receive h hcurrent
  | advance index io => exact serving_advance h hcurrent
  | conclude index delivery =>
      obtain ⟨⟨hissued, hmessages, hacks, hrunning, hholder⟩, hcases⟩ :=
        conclude_cases channel w index delivery
      refine ⟨by rw [hissued, hmessages]; exact h.sent,
        by rw [hissued, hrunning, hholder]; exact h.running,
        by rw [hissued, hacks, hholder]; exact h.acked, fun hc => ?_⟩
      rw [hholder]
      rcases hcases with hconfirmed | ⟨hwaiting, m, hm, hdelivery, hok⟩
      · exact h.confirmed (hconfirmed ▸ hc)
      · exact h.acked m hm hok (hcurrent hwaiting m hm hdelivery)

/-- Once the latest instruction has returned `Ok`, the target holds what it intends, as
long as the network hands over nothing that was made for an earlier instruction, and no
handler of an earlier message still takes a step. -/
theorem seed_follows_latest_instruction (channel : SeedChannel) (holder : SeedHolder)
    (events : List SeedEvent) (i k : Nat) (hik : i < k) (hk : k ≤ events.length)
    (instruction : SeedInstruction) (hinstruct : events[i]? = some (.instruct instruction))
    (hlatest : ∀ j event, i < j → j < k → events[j]? = some event → event.isInstruction = false)
    (hcurrent : ∀ j event, i < j → j < k → events[j]? = some event →
      (SeedWorld.after channel holder events j).Current channel event)
    (hconfirmed : (SeedWorld.after channel holder events k).confirmed = true) :
    (SeedWorld.after channel holder events k).holder = instruction.intended channel := by
  have hserving : ∀ j, i + 1 ≤ j → j ≤ k →
      (SeedWorld.after channel holder events j).Serving channel instruction := by
    intro j hj
    induction j, hj using Nat.le_induction with
    | base =>
        intro _
        have hi : i < events.length := by omega
        rw [List.getElem?_eq_getElem hi, Option.some.injEq] at hinstruct
        rw [SeedWorld.after, Runs.stateAt_succ hi, hinstruct]
        exact serving_instruct (numbered_after holder events i) instruction
    | succ j hij ih =>
        intro hjk
        have hj : j < events.length := by omega
        have hevent : events[j]? = some events[j] := List.getElem?_eq_getElem hj
        rw [SeedWorld.after, Runs.stateAt_succ hj]
        exact serving_step (ih (by omega)) (hlatest j _ (by omega) (by omega) hevent)
          (hcurrent j _ (by omega) (by omega) hevent)
  exact (hserving k hik le_rfl).confirmed hconfirmed

/-! ## Replays and late handlers

On a channel that works, the network can use an acknowledgement and an envelope again, and
a handler can end after one that started later. -/

/-- Leader and target have each other's keys and entries, and messages can be encoded. -/
structure SeedChannel.Established (channel : SeedChannel) : Prop where
  entry : channel.target.Matches channel.crypto channel.leader.clusterId channel.leader.network
    channel.target.nodeId channel.entry
  name : isValidNetworkName channel.target.network = true
  leaderKey : channel.target.verifier.keys[channel.leader.nodeId]? =
    some (channel.crypto.edPublic channel.leader.identity)
  targetKey : channel.leader.verifier.keys[channel.target.nodeId]? =
    some (channel.crypto.edPublic channel.target.identity)
  encodes : ∀ item, ∃ bytes, channel.crypto.cbor item = .ok bytes

theorem exists_ack (h : channel.Established) (sender : NodeId) (updated : SeedHolder) :
    ∃ ack, acknowledge channel.crypto channel.target sender (.ok updated) = .ok ack ∧
      concludeInstruction channel.crypto channel.leader channel.target.nodeId ack = .ok () := by
  obtain ⟨bytes, hbytes⟩ := h.encodes <| .map
    [("v", .uint seedEnvelopeVersion.toNat), ("from", .uint channel.target.nodeId),
      ("to", .uint sender), ("ok", .bool true), ("error", .text "")]
  have hsign : signAck channel.crypto channel.target.identity channel.target.nodeId sender true "" =
      .ok ⟨seedEnvelopeVersion, channel.target.nodeId, sender, true, "",
        signB64 channel.crypto channel.target.identity bytes⟩ := by
    simp only [signAck, bind_eq_ok, pure_eq_ok, ackSigningBytes, encodeCbor, mapError_eq_ok]
    exact ⟨bytes, hbytes, rfl⟩
  refine ⟨_, mapError_eq_ok.mpr hsign, ?_⟩
  rw [concludeInstruction, mapError_eq_ok]
  exact verifyAck_signAck channel.lawful h.targetKey hsign

theorem exists_accepted (h : channel.Established)
    (hview : view = none ∨ view = some channel.leader.nodeId)
    (hprepare : channel.prepare instruction = .ok message) :
    channel.check view message = .ok (instruction.seed channel) ∧
      ∃ ack, acknowledge channel.crypto channel.target message.sender
          (.ok (instruction.intended channel)) = .ok ack ∧
        concludeInstruction channel.crypto channel.leader channel.target.nodeId ack = .ok () := by
  cases instruction with
  | deliver random =>
      obtain ⟨envelope, hseal, rfl⟩ := prepare_deliver hprepare
      have hopen := openSeed_sealSeed channel.lawful channel.seed_length h.entry h.leaderKey hview
        hseal
      have haccept : channel.accept view none .empty (.delivery envelope) =
          .ok (.holding channel.seed) := acceptSeed_of_openSeed hopen h.name
      exact ⟨check_of_accept haccept, exists_ack h envelope.fromNode _⟩
  | drop =>
      obtain ⟨request, hsign, rfl⟩ := prepare_drop hprepare
      have hverify := verifyDropRequest_signDropRequest channel.lawful h.entry h.leaderKey hview
        hsign
      have haccept : channel.accept view none .empty (.drop request) = .ok .empty :=
        acceptSeedDrop_of_verifyDropRequest hverify
      exact ⟨check_of_accept haccept, exists_ack h request.fromNode _⟩

section Steps

variable {index number : Nat} {sender : NodeId} {ack : SeedAck}

theorem step_instruct (hprepare : channel.prepare instruction = .ok message) :
    w.step channel (.instruct instruction) =
      { w with
        issued := w.issued + 1
        messages := w.messages ++ [(w.issued + 1, message)]
        waiting := w.waiting ++ [w.issued + 1]
        confirmed := false } := by
  rw [SeedWorld.step, hprepare]

theorem step_receive (hm : w.messages[index]? = some (number, message))
    (hcheck : channel.check view message = .ok seed) :
    w.step channel (.receive view (.replayed index)) =
      { w with running := w.running ++ [⟨number, message.sender, seed, false⟩] } := by
  simp only [SeedWorld.step, Delivery.message, hm, hcheck]

theorem step_file (hhandler : w.running[index]? = some ⟨number, sender, seed, false⟩) :
    w.step channel (.advance index none) =
      { w with
        running := w.running.set index ⟨number, sender, seed, true⟩
        holder := ⟨seed, w.holder.memory⟩ } := by
  have hchange : w.holder.changeFile seed none = .ok ⟨seed, w.holder.memory⟩ := by
    cases seed <;> rfl
  simp only [SeedWorld.step, hhandler, hchange, Bool.false_eq_true, if_false]

theorem step_memory (hhandler : w.running[index]? = some ⟨number, sender, seed, true⟩)
    (hack : acknowledge channel.crypto channel.target sender (.ok ⟨w.holder.file, seed⟩) =
      .ok ack) :
    w.step channel (.advance index io) =
      { w with
        running := w.running.eraseIdx index
        holder := ⟨w.holder.file, seed⟩
        acks := w.acks ++ [(number, ack)] } := by
  simp only [SeedWorld.step, hhandler, if_true, SeedWorld.answer, hack]
  rfl

theorem step_conclude {call label : Nat} (hcall : w.waiting[call]? = some w.issued)
    (hack : w.acks[index]? = some (label, ack))
    (hconclude : concludeInstruction channel.crypto channel.leader channel.target.nodeId ack =
      .ok ()) :
    w.step channel (.conclude call (.replayed index)) =
      { w with waiting := w.waiting.eraseIdx call, confirmed := true } := by
  simp only [SeedWorld.step, Delivery.message, hcall, hack, hconclude]
  simp [Except.isOk, Except.toBool]

end Steps

def handling (index : Nat) : List SeedEvent :=
  [.receive none (.replayed index), .advance 0 none, .advance 0 none]

theorem foldl_handling {index number : Nat} {ack : SeedAck}
    (hm : w.messages[index]? = some (number, message)) (hidle : w.running = [])
    (hcheck : channel.check none message = .ok seed)
    (hack : acknowledge channel.crypto channel.target message.sender (.ok ⟨seed, seed⟩) = .ok ack) :
    (handling index).foldl (SeedWorld.step channel) w =
      { w with holder := ⟨seed, seed⟩, acks := w.acks ++ [(number, ack)] } := by
  obtain ⟨issued, messages, acks, waiting, confirmed, running, holder⟩ := w
  obtain rfl : running = [] := hidle
  rw [handling, List.foldl_cons, step_receive hm hcheck, List.foldl_cons, step_file rfl,
    List.foldl_cons, step_memory rfl hack]
  rfl

/-- A delivery that works, and then a request to drop the seed that is lost: the network
gives the acknowledgement of the delivery to the second instruction. -/
def replayedAck (random : SealRandom) : List SeedEvent :=
  [.instruct (.deliver random)] ++ handling 0 ++
    [.conclude 0 (.replayed 0), .instruct .drop, .conclude 0 (.replayed 0)]

/-- A delivery and a request to drop the seed that both work: the network then gives the
envelope to the target once more. -/
def replayedEnvelope (random : SealRandom) : List SeedEvent :=
  [.instruct (.deliver random)] ++ handling 0 ++ [.conclude 0 (.replayed 0), .instruct .drop] ++
    handling 1 ++ [.conclude 0 (.replayed 1)] ++ handling 0

/-- The handler of the delivery has passed its checks when the request to drop the seed is
sent, and goes on after that is confirmed.  The network hands over every message once. -/
def lateHandler (random : SealRandom) : List SeedEvent :=
  [.instruct (.deliver random), .receive none (.replayed 0), .instruct .drop,
    .receive none (.replayed 1), .advance 1 none, .advance 1 none, .conclude 1 (.replayed 0),
    .advance 0 none, .advance 0 none]

def SeedWorld.final (channel : SeedChannel) (events : List SeedEvent) : SeedWorld :=
  events.foldl (SeedWorld.step channel) (.start .empty)

theorem after_length (events : List SeedEvent) :
    SeedWorld.after channel .empty events events.length = SeedWorld.final channel events := by
  rw [SeedWorld.after, Runs.stateAt, List.take_length]
  rfl

theorem final_append (first second : List SeedEvent) :
    SeedWorld.final channel (first ++ second) =
      second.foldl (SeedWorld.step channel) (SeedWorld.final channel first) :=
  List.foldl_append

section Disagreement

variable {random : SealRandom} {delivery drop : SeedMessage} {first second : SeedAck}

theorem final_instruct (hdeliver : channel.prepare (.deliver random) = .ok delivery) :
    SeedWorld.final channel [.instruct (.deliver random)] =
      ⟨1, [(1, delivery)], [], [1], false, [], .empty⟩ :=
  step_instruct hdeliver

theorem final_delivery (hdeliver : channel.prepare (.deliver random) = .ok delivery)
    (hcheck : channel.check none delivery = .ok (some channel.seed))
    (hfirst : acknowledge channel.crypto channel.target delivery.sender
      (.ok (.holding channel.seed)) = .ok first)
    (hconclude : concludeInstruction channel.crypto channel.leader channel.target.nodeId first =
      .ok ()) :
    SeedWorld.final channel
        ([.instruct (.deliver random)] ++ handling 0 ++ [.conclude 0 (.replayed 0)]) =
      ⟨1, [(1, delivery)], [(1, first)], [], true, [], .holding channel.seed⟩ := by
  have hhandled : (handling 0).foldl (SeedWorld.step channel)
      ⟨1, [(1, delivery)], [], [1], false, [], .empty⟩ =
      ⟨1, [(1, delivery)], [(1, first)], [1], false, [], .holding channel.seed⟩ :=
    foldl_handling rfl rfl hcheck hfirst
  have hconcluded : SeedWorld.step channel
      ⟨1, [(1, delivery)], [(1, first)], [1], false, [], .holding channel.seed⟩
      (.conclude 0 (.replayed 0)) =
      ⟨1, [(1, delivery)], [(1, first)], [], true, [], .holding channel.seed⟩ :=
    step_conclude rfl rfl hconclude
  rw [final_append, final_append, final_instruct hdeliver, hhandled]
  exact hconcluded

theorem final_replayedAck (hdeliver : channel.prepare (.deliver random) = .ok delivery)
    (hdrop : channel.prepare .drop = .ok drop)
    (hcheck : channel.check none delivery = .ok (some channel.seed))
    (hfirst : acknowledge channel.crypto channel.target delivery.sender
      (.ok (.holding channel.seed)) = .ok first)
    (hconclude : concludeInstruction channel.crypto channel.leader channel.target.nodeId first =
      .ok ()) :
    SeedWorld.final channel (replayedAck random) =
      ⟨2, [(1, delivery), (2, drop)], [(1, first)], [], true, [], .holding channel.seed⟩ := by
  have hinstructed : SeedWorld.step channel
      ⟨1, [(1, delivery)], [(1, first)], [], true, [], .holding channel.seed⟩ (.instruct .drop) =
      ⟨2, [(1, delivery), (2, drop)], [(1, first)], [2], false, [], .holding channel.seed⟩ :=
    step_instruct hdrop
  have hconcluded : SeedWorld.step channel
      ⟨2, [(1, delivery), (2, drop)], [(1, first)], [2], false, [], .holding channel.seed⟩
      (.conclude 0 (.replayed 0)) =
      ⟨2, [(1, delivery), (2, drop)], [(1, first)], [], true, [], .holding channel.seed⟩ :=
    step_conclude rfl rfl hconclude
  rw [← hconcluded, ← hinstructed, ← final_delivery hdeliver hcheck hfirst hconclude]
  rfl

theorem final_replayedEnvelope (hdeliver : channel.prepare (.deliver random) = .ok delivery)
    (hdrop : channel.prepare .drop = .ok drop)
    (hcheck : channel.check none delivery = .ok (some channel.seed))
    (hdropCheck : channel.check none drop = .ok none)
    (hfirst : acknowledge channel.crypto channel.target delivery.sender
      (.ok (.holding channel.seed)) = .ok first)
    (hsecond : acknowledge channel.crypto channel.target drop.sender (.ok .empty) = .ok second)
    (hconclude : concludeInstruction channel.crypto channel.leader channel.target.nodeId first =
      .ok ())
    (hconcludeDrop : concludeInstruction channel.crypto channel.leader channel.target.nodeId
      second = .ok ()) :
    SeedWorld.final channel (replayedEnvelope random) =
      ⟨2, [(1, delivery), (2, drop)], [(1, first), (2, second), (1, first)], [], true, [],
        .holding channel.seed⟩ := by
  have hinstructed : SeedWorld.step channel
      ⟨1, [(1, delivery)], [(1, first)], [], true, [], .holding channel.seed⟩ (.instruct .drop) =
      ⟨2, [(1, delivery), (2, drop)], [(1, first)], [2], false, [], .holding channel.seed⟩ :=
    step_instruct hdrop
  have hdropped : (handling 1).foldl (SeedWorld.step channel)
      ⟨2, [(1, delivery), (2, drop)], [(1, first)], [2], false, [], .holding channel.seed⟩ =
      ⟨2, [(1, delivery), (2, drop)], [(1, first), (2, second)], [2], false, [], .empty⟩ :=
    foldl_handling rfl rfl hdropCheck hsecond
  have hconcluded : SeedWorld.step channel
      ⟨2, [(1, delivery), (2, drop)], [(1, first), (2, second)], [2], false, [], .empty⟩
      (.conclude 0 (.replayed 1)) =
      ⟨2, [(1, delivery), (2, drop)], [(1, first), (2, second)], [], true, [], .empty⟩ :=
    step_conclude rfl rfl hconcludeDrop
  have hagain : (handling 0).foldl (SeedWorld.step channel)
      ⟨2, [(1, delivery), (2, drop)], [(1, first), (2, second)], [], true, [], .empty⟩ =
      ⟨2, [(1, delivery), (2, drop)], [(1, first), (2, second), (1, first)], [], true, [],
        .holding channel.seed⟩ :=
    foldl_handling rfl rfl hcheck hfirst
  rw [← hagain, ← hconcluded, ← hdropped, ← hinstructed,
    ← final_delivery hdeliver hcheck hfirst hconclude]
  rfl

theorem final_lateHandler (hdeliver : channel.prepare (.deliver random) = .ok delivery)
    (hdrop : channel.prepare .drop = .ok drop)
    (hcheck : channel.check none delivery = .ok (some channel.seed))
    (hdropCheck : channel.check none drop = .ok none)
    (hfirst : acknowledge channel.crypto channel.target delivery.sender
      (.ok (.holding channel.seed)) = .ok first)
    (hsecond : acknowledge channel.crypto channel.target drop.sender (.ok .empty) = .ok second)
    (hconcludeDrop : concludeInstruction channel.crypto channel.leader channel.target.nodeId
      second = .ok ()) :
    SeedWorld.final channel (lateHandler random) =
      ⟨2, [(1, delivery), (2, drop)], [(2, second), (1, first)], [1], true, [],
        .holding channel.seed⟩ := by
  have hreceived : SeedWorld.step channel ⟨1, [(1, delivery)], [], [1], false, [], .empty⟩
      (.receive none (.replayed 0)) =
      ⟨1, [(1, delivery)], [], [1], false, [⟨1, delivery.sender, some channel.seed, false⟩],
        .empty⟩ :=
    step_receive rfl hcheck
  have hinstructed : SeedWorld.step channel
      ⟨1, [(1, delivery)], [], [1], false, [⟨1, delivery.sender, some channel.seed, false⟩], .empty⟩
      (.instruct .drop) =
      ⟨2, [(1, delivery), (2, drop)], [], [1, 2], false,
        [⟨1, delivery.sender, some channel.seed, false⟩], .empty⟩ :=
    step_instruct hdrop
  have hreceivedDrop : SeedWorld.step channel
      ⟨2, [(1, delivery), (2, drop)], [], [1, 2], false,
        [⟨1, delivery.sender, some channel.seed, false⟩], .empty⟩ (.receive none (.replayed 1)) =
      ⟨2, [(1, delivery), (2, drop)], [], [1, 2], false,
        [⟨1, delivery.sender, some channel.seed, false⟩, ⟨2, drop.sender, none, false⟩], .empty⟩ :=
    step_receive rfl hdropCheck
  have hremoved : SeedWorld.step channel
      ⟨2, [(1, delivery), (2, drop)], [], [1, 2], false,
        [⟨1, delivery.sender, some channel.seed, false⟩, ⟨2, drop.sender, none, false⟩], .empty⟩
      (.advance 1 none) =
      ⟨2, [(1, delivery), (2, drop)], [], [1, 2], false,
        [⟨1, delivery.sender, some channel.seed, false⟩, ⟨2, drop.sender, none, true⟩], .empty⟩ :=
    step_file rfl
  have hcleared : SeedWorld.step channel
      ⟨2, [(1, delivery), (2, drop)], [], [1, 2], false,
        [⟨1, delivery.sender, some channel.seed, false⟩, ⟨2, drop.sender, none, true⟩], .empty⟩
      (.advance 1 none) =
      ⟨2, [(1, delivery), (2, drop)], [(2, second)], [1, 2], false,
        [⟨1, delivery.sender, some channel.seed, false⟩], .empty⟩ :=
    step_memory rfl hsecond
  have hconcluded : SeedWorld.step channel
      ⟨2, [(1, delivery), (2, drop)], [(2, second)], [1, 2], false,
        [⟨1, delivery.sender, some channel.seed, false⟩], .empty⟩ (.conclude 1 (.replayed 0)) =
      ⟨2, [(1, delivery), (2, drop)], [(2, second)], [1], true,
        [⟨1, delivery.sender, some channel.seed, false⟩], .empty⟩ :=
    step_conclude rfl rfl hconcludeDrop
  have hwritten : SeedWorld.step channel
      ⟨2, [(1, delivery), (2, drop)], [(2, second)], [1], true,
        [⟨1, delivery.sender, some channel.seed, false⟩], .empty⟩ (.advance 0 none) =
      ⟨2, [(1, delivery), (2, drop)], [(2, second)], [1], true,
        [⟨1, delivery.sender, some channel.seed, true⟩], ⟨some channel.seed, none⟩⟩ :=
    step_file rfl
  have hinstalled : SeedWorld.step channel
      ⟨2, [(1, delivery), (2, drop)], [(2, second)], [1], true,
        [⟨1, delivery.sender, some channel.seed, true⟩], ⟨some channel.seed, none⟩⟩
      (.advance 0 none) =
      ⟨2, [(1, delivery), (2, drop)], [(2, second), (1, first)], [1], true, [],
        .holding channel.seed⟩ :=
    step_memory rfl hfirst
  rw [← hinstalled, ← hwritten, ← hconcluded, ← hcleared, ← hremoved, ← hreceivedDrop,
    ← hinstructed, ← hreceived, ← final_instruct hdeliver]
  rfl

/-- On every channel that works, the target holds the seed after a confirmed request to
drop it, in all three runs. -/
theorem seed_held_after_drop (h : channel.Established)
    (hdeliver : channel.prepare (.deliver random) = .ok delivery)
    (hdrop : channel.prepare .drop = .ok drop) {events : List SeedEvent}
    (hevents : events ∈ [replayedAck random, replayedEnvelope random, lateHandler random]) :
    (SeedWorld.final channel events).confirmed = true ∧
      (SeedWorld.final channel events).holder = .holding channel.seed := by
  obtain ⟨hcheck, first, hfirst, hconclude⟩ := exists_accepted h (Or.inl rfl) hdeliver
  obtain ⟨hdropCheck, second, hsecond, hconcludeDrop⟩ := exists_accepted h (Or.inl rfl) hdrop
  simp only [List.mem_cons, List.not_mem_nil, or_false] at hevents
  rcases hevents with rfl | rfl | rfl
  · rw [final_replayedAck hdeliver hdrop hcheck hfirst hconclude]
    exact ⟨rfl, rfl⟩
  · rw [final_replayedEnvelope hdeliver hdrop hcheck hdropCheck hfirst hsecond hconclude
      hconcludeDrop]
    exact ⟨rfl, rfl⟩
  · rw [final_lateHandler hdeliver hdrop hcheck hdropCheck hfirst hsecond hconcludeDrop]
    exact ⟨rfl, rfl⟩

end Disagreement

namespace SampleChannel

def table : BTreeMap NodeId Bytes := ((∅ : BTreeMap NodeId Bytes).insert 1 [1]).insert 2 [2]

def node (id : NodeId) (peerId : String) : SeedNode where
  identity := [UInt8.ofNat id]
  x25519 := List.replicate 32 (UInt8.ofNat id)
  verifier := ⟨"cluster", id, table⟩
  clusterId := "cluster"
  network := "net"
  nodeId := id
  peerId := peerId

def pair : SeedChannel where
  crypto := sampleCrypto
  lawful := sampleCrypto_lawful
  leader := node 1 peerA
  target := node 2 peerB
  entry := ⟨peerB, sampleText [2], sampleText (List.replicate 32 2)⟩
  exchangeKey := sampleUntext_sampleText _
  seed := List.replicate 32 7
  seed_length := rfl

theorem ephemeral_length : (List.replicate 32 (1 : UInt8)).length = x25519KeyLen := rfl

theorem nonce_length : (List.replicate 12 (1 : UInt8)).length = 12 := rfl

def random : SealRandom :=
  ⟨List.replicate 32 1, ephemeral_length, List.replicate 12 1, nonce_length⟩

theorem established : pair.Established where
  entry := ⟨rfl, rfl, rfl, rfl, rfl, sampleUntext_sampleText _⟩
  name := by decide +kernel
  leaderKey := by decide +kernel
  targetKey := by decide +kernel
  encodes _ := ⟨_, rfl⟩

theorem prepares_delivery : ∃ message, pair.prepare (.deliver random) = .ok message :=
  isOk_eq_true.mp (by decide +kernel)

theorem prepares_drop : ∃ message, pair.prepare .drop = .ok message :=
  isOk_eq_true.mp (by decide +kernel)

end SampleChannel

/-- The latest call, to drop the seed, has returned `Ok`, and the target does not hold what it
intends. -/
def DisagreesAfter (channel : SeedChannel) (events : List SeedEvent) : Prop :=
  (SeedWorld.after channel .empty events events.length).confirmed = true ∧
    (SeedWorld.after channel .empty events events.length).holder ≠
      SeedInstruction.drop.intended channel

open SampleChannel in
theorem seed_disagrees_after_replay :
    DisagreesAfter pair (replayedAck random) ∧ DisagreesAfter pair (replayedEnvelope random) ∧
      DisagreesAfter pair (lateHandler random) := by
  obtain ⟨delivery, hdeliver⟩ := prepares_delivery
  obtain ⟨drop, hdrop⟩ := prepares_drop
  have hall : ∀ events ∈ [replayedAck random, replayedEnvelope random, lateHandler random],
      DisagreesAfter pair events := by
    intro events hevents
    obtain ⟨hconfirmed, hholder⟩ := seed_held_after_drop established hdeliver hdrop hevents
    rw [DisagreesAfter, after_length, hholder]
    exact ⟨hconfirmed, by decide⟩
  exact ⟨hall _ (.head _), hall _ (.tail _ (.head _)), hall _ (.tail _ (.tail _ (.head _)))⟩

open SampleChannel in
theorem seed_follows_latest_instruction_delivery :
    (SeedWorld.after pair .empty (replayedAck random) 5).holder = .holding pair.seed := by
  obtain ⟨delivery, hdeliver⟩ := prepares_delivery
  obtain ⟨hcheck, ack, hack, hconclude⟩ := exists_accepted established (Or.inl rfl) hdeliver
  -- the worlds before each of the events in question
  have hone : SeedWorld.after pair .empty (replayedAck random) 1 =
      ⟨1, [(1, delivery)], [], [1], false, [], .empty⟩ := final_instruct hdeliver
  have htwo : SeedWorld.after pair .empty (replayedAck random) 2 =
      ⟨1, [(1, delivery)], [], [1], false, [⟨1, delivery.sender, some pair.seed, false⟩],
        .empty⟩ := by
    rw [SeedWorld.after, Runs.stateAt_succ (by decide), ← SeedWorld.after, hone]
    exact step_receive rfl hcheck
  have hfiled : SeedWorld.step pair
      ⟨1, [(1, delivery)], [], [1], false, [⟨1, delivery.sender, some pair.seed, false⟩], .empty⟩
      (.advance 0 none) =
      ⟨1, [(1, delivery)], [], [1], false, [⟨1, delivery.sender, some pair.seed, true⟩],
        ⟨some pair.seed, none⟩⟩ :=
    step_file rfl
  have hthree : SeedWorld.after pair .empty (replayedAck random) 3 =
      ⟨1, [(1, delivery)], [], [1], false, [⟨1, delivery.sender, some pair.seed, true⟩],
        ⟨some pair.seed, none⟩⟩ := by
    rw [SeedWorld.after, Runs.stateAt_succ (by decide), ← SeedWorld.after, htwo]
    exact hfiled
  have hinstalled : SeedWorld.step pair
      ⟨1, [(1, delivery)], [], [1], false, [⟨1, delivery.sender, some pair.seed, true⟩],
        ⟨some pair.seed, none⟩⟩ (.advance 0 none) =
      ⟨1, [(1, delivery)], [(1, ack)], [1], false, [], .holding pair.seed⟩ :=
    step_memory rfl hack
  have hfour : SeedWorld.after pair .empty (replayedAck random) 4 =
      ⟨1, [(1, delivery)], [(1, ack)], [1], false, [], .holding pair.seed⟩ := by
    rw [SeedWorld.after, Runs.stateAt_succ (by decide), ← SeedWorld.after, hthree]
    exact hinstalled
  have hfive : SeedWorld.after pair .empty (replayedAck random) 5 =
      ⟨1, [(1, delivery)], [(1, ack)], [], true, [], .holding pair.seed⟩ :=
    final_delivery hdeliver hcheck hack hconclude
  refine seed_follows_latest_instruction pair .empty (replayedAck random) 0 5 (by decide)
    (by decide) (.deliver random) rfl ?_ ?_ (by rw [hfive])
  · intro j event hj hjk hevent
    interval_cases j <;> cases hevent <;> rfl
  · intro j event hj hjk hevent
    interval_cases j <;> cases hevent
    · rw [hone]
      intro m hm _
      rw [List.mem_singleton.mp hm]
    · rw [htwo]
      intro handler hhandler
      rw [← Option.some.inj hhandler]
    · rw [hthree]
      intro handler hhandler
      rw [← Option.some.inj hhandler]
    · rw [hfour]
      intro _ m hm _
      rw [List.mem_singleton.mp hm]

end NexusAuth.Raft
