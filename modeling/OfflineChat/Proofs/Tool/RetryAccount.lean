import OfflineChat.Proofs.Sync.ChannelsFirst
import OfflineChat.Proofs.Tool.SimulatedPass
import OfflineChat.Tool.Session

/-! # The command `retry`

The command runs a sync pass of a fresh client against the simulated service and prints its report.
Main definition: `Session.Accounts`, how its submissions account for what has waited in a database.
Main statement: they do, for every page size, and the command submits nothing when it is given again
(`Session.retry_accounts`). -/

set_option autoImplicit false

namespace OfflineChat

/-! ## What submissions come to -/

namespace Backend

/-- The channel of the submission with a number: rejected, or updated when it was acknowledged. -/
def settledChannel (failEvery : Option Nat) (now : Instant) (submission : Nat) (c : Channel) :
    Channel :=
  if Rejects failEvery submission then { c with syncStatus := .failedPermanently }
  else { c with updatedAt := some now, syncStatus := .completed }

/-- The message of the submission with a number: rejected, which it tells the reason of, or dated
when it was acknowledged. -/
def settledMessage (failEvery : Option Nat) (now : Instant) (submission : Nat) (m : Message) :
    Message :=
  if Rejects failEvery submission then
    { m with
      syncStatus := .failedPermanently, updatedLocallyAt := some now
      syncDescription := some (rejectionReason submission) }
  else { m with createdAt := some now, updatedAt := some now, syncStatus := .completed }

theorem isSimulated_channels (failEvery : Option Nat) (now : Instant) :
    (Client.channelBacking (service failEvery now)).IsSimulated failEvery
      fun c => { c with updatedAt := some now } := ⟨fun _ _ => rfl, fun _ => rfl⟩

theorem isSimulated_messages (failEvery : Option Nat) (now : Instant) :
    (Client.messageBacking (service failEvery now)).IsSimulated failEvery
      fun m => { m with createdAt := some now, updatedAt := some now } :=
  ⟨fun _ _ => rfl, fun _ => rfl⟩

theorem isSome_answer {ε : Type} (failEvery : Option Nat) (acknowledged : ε) (n : Nat) :
    (answer failEvery acknowledged n).1.isSome := by
  rw [answer_eq]
  rfl

end Backend

namespace Session

/-- A session that is about to start on a database. -/
def start (config : Config) (db : Database) : Session := ⟨config.client db none 0, []⟩

/-- The database that a session works on. -/
def database (s : Session) : Database := s.client.replica.database

/-- How the submissions of a session account for what has waited in a database: `channels` and
`messages` were submitted, and `report` is printed. -/
structure Accounts (config : Config) (failEvery : Option Nat) (now : Instant) (db : Database)
    (session : Session) (report : SyncReport) (channels : List Channel)
    (messages : List Message) : Prop where
  /-- The channels that have waited are submitted, one for each row, -/
  channels_eq : channels.map some = db.waitingChannels.map fun row => row.channel.toOption
  /-- and the messages, with their users. -/
  messages_eq : messages.map some = db.waitingMessages.map fun row =>
    row.message.toOption.map (config.replica db none).completed
  /-- Nothing else is submitted, and all channels come before all messages. -/
  submissions_eq : session.client.submissions = channels.map .inl ++ messages.map .inr
  remote_eq : session.client.remote = channels.length + messages.length
  /-- The numbers of the submissions decide how the channels end, -/
  channel_stored : ∀ p ∈ channels.zipIdx 1, session.database.channels.get? p.1.cid
    = some (Backend.settledChannel failEvery now p.2 p.1).toRow
  /-- and the messages, whose numbers go on from those of the channels. -/
  message_stored : ∀ p ∈ messages.zipIdx (channels.length + 1),
    session.database.messages.get? p.1.id
      = some (Backend.settledMessage failEvery now p.2 p.1).toRow
  channel_unchanged : ∀ cid ∉ channels.map Channel.cid,
    session.database.channels.get? cid = db.channels.get? cid
  message_unchanged : ∀ id ∉ messages.map Message.id,
    session.database.messages.get? id = db.messages.get? id
  others_eq : session.database
    = { db with
        channels := session.database.channels, messages := session.database.messages }
  /-- Nothing waits any more. -/
  settled : session.database.waitingChannels = [] ∧ session.database.waitingMessages = []
  /-- As many end rejected as there are multiples among the numbers of the submissions, -/
  failed_eq :
    session.database.channels.countStatus Row.channelStatus .failedPermanently
        (channels.map Channel.cid) +
      session.database.messages.countStatus Row.messageStatus .failedPermanently
        (messages.map Message.id)
      = Backend.rejections failEvery (channels.length + messages.length)
  /-- and all others end completed. -/
  completed_eq :
    session.database.channels.countStatus Row.channelStatus .completed
        (channels.map Channel.cid) +
      session.database.messages.countStatus Row.messageStatus .completed
        (messages.map Message.id) +
      Backend.rejections failEvery (channels.length + messages.length)
      = channels.length + messages.length
  channels_told : report.channels.Tells session.database.channels Row.channelStatus
    (channels.map Channel.cid)
  messages_told : report.messages.Tells session.database.messages Row.messageStatus
    (messages.map Message.id)
  printed_eq : session.printed = [String.ofList report.toJson.pretty]

/-- A whole pass of a fresh client through the simulated service accounts for its submissions. -/
theorem accounts_of_wholePass {config : Config} {failEvery : Option Nat} {db : Database}
    (rules : SyncRules) (hclassifier : rules.classifier = .standard) {between c' : Client Nat}
    {report : SyncReport} {channels : List (Channel × Answer Channel)}
    {messages : List (Message × Answer Message)}
    (h : WholePass (Backend.service failEvery rules.now) rules (config.client db none 0) between c'
      report channels messages) :
    Accounts config failEvery rules.now db ⟨c', [String.ofList report.toJson.pretty]⟩ report
      (channels.map Prod.fst) (messages.map Prod.fst) := by
  have hchannels := h.channels_complete.simulatedPass (Backend.isSimulated_channels _ _) hclassifier
  have hmessages := h.messages_complete.simulatedPass (Backend.isSimulated_messages _ _) hclassifier
  have hbefore : between.remote = (channels.map Prod.fst).length :=
    hchannels.remote_eq.trans (Nat.zero_add _)
  have htold₁ : report.channels.Tells c'.replica.database.channels Row.channelStatus
      ((channels.map Prod.fst).map key) := h.channels_kept ▸ hchannels.tells
  have htold₂ : report.messages.Tells c'.replica.database.messages Row.messageStatus
      ((messages.map Prod.fst).map key) := hmessages.tells
  have hfailed := hchannels.failed_add hmessages rfl hbefore
  constructor
  case channels_eq => exact hchannels.submitted_eq
  case messages_eq =>
    have hread : (messages.map Prod.fst).map some
        = between.replica.database.waitingMessages.map fun row =>
            row.message.toOption.map between.replica.completed := hmessages.submitted_eq
    rw [h.completed_eq, Database.waitingMessages, h.messages_kept] at hread
    exact hread
  case submissions_eq =>
    rw [List.map_map, List.map_map]
    exact h.submissions_eq
  case remote_eq => exact hmessages.remote_eq.trans (congrArg (· + _) hbefore)
  case channel_stored => exact h.channels_kept ▸ hchannels.stored
  case message_stored => exact hbefore ▸ hmessages.stored
  case channel_unchanged => exact h.channels_kept ▸ hchannels.unchanged
  case message_unchanged => exact h.messages_kept ▸ hmessages.unchanged
  case others_eq => exact h.database_eq
  case settled =>
    have hwaiting : between.replica.database.waitingChannels = [] := hchannels.waiting_eq
    rw [Database.waitingChannels, h.channels_kept] at hwaiting
    exact ⟨hwaiting, hmessages.waiting_eq⟩
  case failed_eq =>
    rw [← hfailed, htold₁.failed_eq, htold₂.failed_eq]
    rfl
  case completed_eq =>
    have hall₁ := htold₁.all_eq
    have hall₂ := htold₂.all_eq
    rw [htold₁.submitted_eq, htold₁.completed_eq, List.length_map key] at hall₁
    rw [htold₂.submitted_eq, htold₂.completed_eq, List.length_map key] at hall₂
    rw [← hfailed, ← hall₁, ← hall₂]
    -- each of the two parts is completed but for its rejections
    exact Nat.add_add_add_comm _ _ _ _
  case channels_told => exact htold₁
  case messages_told => exact htold₂
  case printed_eq => rfl

theorem retry_of_sync {failEvery : Option Nat} {rules : SyncRules} {s : Session}
    {report : SyncReport} {client : Client Nat}
    (h : s.client.sync (Backend.service failEvery rules.now) rules
      = (.finished (.ok (some report)), client)) :
    retry failEvery rules s
      = (.ok (), ⟨client, s.printed ++ [String.ofList report.toJson.pretty]⟩) := by
  simp only [retry, h]
  rfl

/-- The command ends well, and its submissions are accounted for. -/
theorem exists_accounts {config : Config} (hbudget : config.maxRetryPages = none)
    (around : Surroundings) (failEvery : Option Nat) {db : Database} (hdb : db.ServesSync) :
    ∃ session report channels messages,
      execute (config.rules .standard around.now) around (.retry failEvery) (start config db)
        = (.ok (), session) ∧
      Accounts config failEvery around.now db session report channels messages := by
  let rules := config.rules .standard around.now
  obtain ⟨report, channels, messages, between, c', hsync, hwhole⟩ :=
    Client.exists_wholePass (Backend.service failEvery around.now) rules hbudget
      (fun _ n => Backend.isSome_answer failEvery _ n)
      (fun _ n => Backend.isSome_answer failEvery _ n) (c := config.client db none 0) rfl
      (fun _ => rfl) hdb
  have hretry : retry failEvery rules (start config db)
      = (.ok (), ⟨c', [String.ofList report.toJson.pretty]⟩) := retry_of_sync hsync
  have haccounts : Accounts config failEvery around.now db _ report _ _ :=
    accounts_of_wholePass rules rfl hwhole
  exact ⟨_, report, _, _, hretry, haccounts⟩

namespace Accounts

variable {config : Config} {failEvery : Option Nat} {now : Instant} {db : Database}
  {session : Session} {report : SyncReport} {channels : List Channel} {messages : List Message}

/-- What the command leaves can be read by the command. -/
theorem servesSync (h : Accounts config failEvery now db session report channels messages)
    (hdb : db.ServesSync) : session.database.ServesSync where
  users := by rw [h.others_eq]; exact hdb.users
  channels := by rw [h.settled.1]; exact fun _ hrow => absurd hrow List.not_mem_nil
  messages := by rw [h.settled.2]; exact fun _ hrow => absurd hrow List.not_mem_nil

/-- Where nothing waits, nothing is submitted. -/
theorem eq_nil (h : Accounts config failEvery now db session report channels messages)
    (hchannels : db.waitingChannels = []) (hmessages : db.waitingMessages = []) :
    channels = [] ∧ messages = [] := by
  have hc := h.channels_eq
  have hm := h.messages_eq
  rw [hchannels, List.map_nil] at hc
  rw [hmessages, List.map_nil] at hm
  exact ⟨List.map_eq_nil_iff.1 hc, List.map_eq_nil_iff.1 hm⟩

/-- Where nothing is submitted, nothing changes. -/
theorem database_eq (h : Accounts config failEvery now db session report [] []) :
    session.database = db := by
  have hchannels : session.database.channels = db.channels :=
    Table.ext_get? fun k => h.channel_unchanged k List.not_mem_nil
  have hmessages : session.database.messages = db.messages :=
    Table.ext_get? fun k => h.message_unchanged k List.not_mem_nil
  rw [h.others_eq, hchannels, hmessages]

end Accounts

end Session

/-- A run of the tool is the session of its command on the database that is opened. -/
theorem Tool.runOn_of_opened {environment : String → Option String} {around : Surroundings}
    {invocation : Invocation} {path : String} {found : Option DatabaseFile} {config : Config}
    {db : Database} {session : Session}
    (hconfig : Tool.config environment invocation.database = config)
    (hopened : (found.getD .blank).opened (some path) = .ok db)
    (hroom : hasRoom config invocation.command = true)
    (hexecute : Session.execute (config.rules .standard around.now) around invocation.command
      (.start config db) = (.ok (), session)) :
    runOn environment around invocation path found
      = ⟨.done, session.printed, kept path session.database⟩ := by
  have hsession : Session.execute (config.rules .standard around.now) around invocation.command
      ⟨config.client db none 0, []⟩ = (.ok (), session) := hexecute
  unfold runOn
  simp only [hopened, hconfig, hroom, hsession, if_true]
  rfl

namespace Session

/-- **The command `retry` accounts for every submission**, for every page size, if it has no budget
of pages and the rows that it reads can be read: the command ends well, its submissions and its
report are as `Accounts` says, so it is for a run of the tool, and the command submits nothing when
it is given again. -/
theorem retry_accounts (config : Config) (hbudget : config.maxRetryPages = none)
    (around : Surroundings) (failEvery : Option Nat) (db : Database) (hdb : db.ServesSync) :
    ∃ session report channels messages,
      execute (config.rules .standard around.now) around (.retry failEvery) (start config db)
        = (.ok (), session) ∧
      Accounts config failEvery around.now db session report channels messages ∧
      (∀ environment invocation path found,
        Tool.config environment invocation.database = config →
        invocation.command = .retry failEvery →
        (found.getD DatabaseFile.blank).opened (some path) = .ok db →
        config.cachesFit = true →
        Tool.runOn environment around invocation path found
          = ⟨.done, session.printed, Tool.kept path session.database⟩) ∧
      ∀ (config' : Config) around' failEvery', config'.maxRetryPages = none →
        ∃ session' report',
          execute (config'.rules .standard around'.now) around' (.retry failEvery')
              (start config' session.database) = (.ok (), session') ∧
            Accounts config' failEvery' around'.now session.database session' report' [] [] ∧
            session'.database = session.database := by
  obtain ⟨session, report, channels, messages, hexecute, haccounts⟩ :=
    exists_accounts hbudget around failEvery hdb
  refine ⟨session, report, channels, messages, hexecute, haccounts, ?_, ?_⟩
  · intro environment invocation path found hconfig hcommand hopened hfit
    refine Tool.runOn_of_opened hconfig hopened ?_ (hcommand ▸ hexecute)
    rw [hcommand]
    simp only [Tool.hasRoom, hfit, Bool.and_self]
  · intro config' around' failEvery' hbudget'
    obtain ⟨session', report', channels', messages', hexecute', haccounts'⟩ :=
      exists_accounts hbudget' around' failEvery' (haccounts.servesSync hdb)
    obtain ⟨rfl, rfl⟩ := haccounts'.eq_nil haccounts.settled.1 haccounts.settled.2
    exact ⟨session', report', hexecute', haccounts', haccounts'.database_eq⟩

/-- Two channels that wait, and a message that waits in the second one. -/
def threeWaiting : Database :=
  let channels := [SyncPass.waitingChannel "a", SyncPass.waitingChannel "b"]
  ((Database.create none).putChannels channels).putMessages [SyncPass.waitingMessage]

/-- With every third submission rejected, that of the message is, which comes after two channels. -/
theorem retry_accounts_threeWaiting : ∃ session,
    execute (Config.standard.rules .standard .epoch) ⟨.epoch, id⟩ (.retry (some 3))
        (start .standard threeWaiting) = (.ok (), session) ∧
      session.client.remote = 3 ∧
      session.database.messages.get? "m" = some { SyncPass.waitingMessage with
        syncStatus := .failedPermanently, updatedLocallyAt := some .epoch
        syncDescription := some
          "message failed moderation: submission 3 rejected by simulated backend" }.toRow := by
  have hchannels : threeWaiting.waitingChannels.all fun row => row.channel.toOption.isSome := rfl
  have hmessages : threeWaiting.waitingMessages.all fun row => row.message.toOption.isSome := rfl
  have hdb : threeWaiting.ServesSync := by
    refine ⟨fun _ hrow => absurd hrow List.not_mem_nil, fun row hrow => ?_, fun row hrow => ?_⟩
    · obtain ⟨channel, hread⟩ := Option.isSome_iff_exists.1 (List.all_eq_true.1 hchannels row hrow)
      exact ⟨channel, toOption_eq_some_iff.1 hread⟩
    · obtain ⟨m, hread⟩ := Option.isSome_iff_exists.1 (List.all_eq_true.1 hmessages row hrow)
      exact ⟨m, toOption_eq_some_iff.1 hread⟩
  obtain ⟨session, report, channels, messages, hexecute, haccounts, _⟩ :=
    retry_accounts .standard rfl ⟨.epoch, id⟩ (some 3) threeWaiting hdb
  have hcount : channels.length = 2 := by
    have hlength := congrArg List.length haccounts.channels_eq
    rw [List.length_map, List.length_map] at hlength
    exact hlength
  have hmessage : messages = [SyncPass.waitingMessage] := by
    refine (List.map_inj_right fun _ _ he => Option.some.inj he).1 (haccounts.messages_eq.trans ?_)
    rfl
  subst hmessage
  refine ⟨session, hexecute, ?_, ?_⟩
  · rw [haccounts.remote_eq, hcount]
    rfl
  · have hstored := haccounts.message_stored (SyncPass.waitingMessage, 3)
      (by rw [hcount]; exact List.mem_singleton.2 rfl)
    have hrejects : Backend.Rejects (some 3) 3 := by decide
    rw [Backend.settledMessage, if_pos hrejects] at hstored
    exact hstored

end Session

end OfflineChat
