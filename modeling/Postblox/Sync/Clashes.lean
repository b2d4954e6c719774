import Postblox.Sync.Clean

/-!
# When a call without faults fails

All that can stop a call without faults is a message that starts a new thread
under a `Message-ID` which some thread of the account already has as its external
id: the database refuses that row. `Known` follows what decides this along the
messages of a call, the external ids in use and what the matcher knows, and
`Tracks` ties it to the loop's variables and to the tables.
-/
namespace Postblox.Sync

open Lib Db Imap Mail Attachments

/-- What ingesting reads of a fetched message, if it reads it at all. -/
def parsedOf (mail : MailCrate) (m : FetchedMessage) : Option ParsedEmail :=
  if m.raw = [] then none else mail.parse m.raw

theorem ingestible_iff {mail : MailCrate} {m : FetchedMessage} :
    Ingestible mail m ↔ (parsedOf mail m).isSome := by
  unfold Ingestible parsedOf
  split_ifs with hraw
  · exact ⟨fun h => absurd hraw h.1, fun h => absurd h Bool.false_ne_true⟩
  · exact ⟨fun h => h.2, fun h => ⟨hraw, h⟩⟩

/-- The external ids in use, the threads the matcher knows and the number of
messages inserted. -/
structure Known where
  external : List (AccountId × String)
  threads : List ThreadRef
  inserted : Nat

namespace Known

variable (mail : MailCrate) (account : AccountId) (clock : ClockSite → Int)

/-- The thread that the matcher picks. -/
def assigned (k : Known) (parsed : ParsedEmail) : ThreadMatch :=
  assignThread mail.caseMap (clock (.assignThread k.inserted)) parsed k.threads

/-- The message starts a new thread under an external id that is in use. -/
def clashes (k : Known) (m : FetchedMessage) : Bool :=
  (parsedOf mail m).any fun parsed =>
    k.assigned mail clock parsed == .new &&
      parsed.messageId.any fun id => k.external.contains (account, id)

/-- After a message that was stored. The id of a thread it starts does not matter
to the matcher. -/
def store (k : Known) (m : FetchedMessage) (parsed : ParsedEmail) : Known :=
  match k.assigned mail clock parsed with
  | .existing _ => { k with inserted := k.inserted + 1 }
  | .new =>
    { external := k.external ++ (parsed.messageId.map (account, ·)).toList
      threads := k.threads ++
        [startedRef 0 parsed (m.internalDate.getD (clock (.threadRef k.inserted)))]
      inserted := k.inserted + 1 }

def after (k : Known) (m : FetchedMessage) : Known :=
  match parsedOf mail m with
  | none => k
  | some parsed => k.store mail account clock m parsed

/-- None of the messages clashes when it is its turn. -/
def Free (k : Known) : List FetchedMessage → Prop
  | [] => True
  | m :: rest => k.clashes mail account clock m = false ∧ (k.after mail account clock m).Free rest

instance decidableFree (k : Known) (messages : List FetchedMessage) :
    Decidable (k.Free mail account clock messages) :=
  match messages with
  | [] => isTrue trivial
  | m :: rest =>
    have := decidableFree (k.after mail account clock m) rest
    inferInstanceAs (Decidable (_ ∧ _))

end Known

/-- The ids and external ids of the thread rows. -/
def World.threadKeys (w : World) : List (ThreadId × Option (AccountId × String)) :=
  w.db.threads.map fun th => (th.id, th.externalKey)

/-- The loop's variables and the tables are those that `k` speaks of. -/
structure Tracks (k : Known) (p : Progress) (keys : List (ThreadId × Option (AccountId × String))) :
    Prop where
  external : k.external = keys.filterMap (·.2)
  views : k.threads.map ThreadRef.view = p.refs.map ThreadRef.view
  inserted : k.inserted = p.inserted
  rows : ∀ r ∈ p.refs, r.threadId ∈ keys.map (·.1)

variable {env : Env} {mail : MailCrate} {account : AccountId} {folder : FolderId} {w : World}
  {k : Known} {p : Progress} {fetched : FetchedMessage} {parsed : ParsedEmail}

theorem Tracks.assigned_new {keys : List (ThreadId × Option (AccountId × String))}
    (h : Tracks k p keys) (clock : ClockSite → Int) :
    k.assigned mail clock parsed = .new ↔
      assignThread mail.caseMap (clock (.assignThread p.inserted)) parsed p.refs = .new := by
  unfold Known.assigned
  rw [h.inserted]
  exact ⟨assignThread_new_congr h.views, assignThread_new_congr h.views.symm⟩

theorem mem_threadKeys {id : ThreadId} :
    id ∈ w.threadKeys.map (·.1) ↔ ∃ th ∈ w.db.threads, th.id = id := by
  unfold World.threadKeys
  simp

theorem externalTaken_iff {externalId : Option String} :
    Threads.ExternalTaken w.db account externalId ↔
      externalId.any fun x => (w.threadKeys.filterMap (·.2)).contains (account, x) := by
  unfold Threads.ExternalTaken World.threadKeys
  cases externalId with
  | none => simp
  | some x => simp

/-- The result is good exactly when `free` holds, and then it satisfies `Q`. -/
def Decides {ε α : Type} (free : Prop) (r : Except ε α) (Q : α → Prop) : Prop :=
  (free → ∃ a, r = .ok a ∧ Q a) ∧ (¬ free → ∃ e, r = .error e)

section Decides

variable {ε α : Type} {free : Prop} {Q : α → Prop} {a : α} {e : ε}

theorem Decides.of_ok (h : Decides free (.ok a : Except ε α) Q) : free ∧ Q a := by
  have hfree : free := by
    by_contra hnot
    obtain ⟨e, he⟩ := h.2 hnot
    cases he
  obtain ⟨b, hb, hQ⟩ := h.1 hfree
  rw [Except.ok.inj hb]
  exact ⟨hfree, hQ⟩

theorem Decides.of_error (h : Decides free (.error e : Except ε α) Q) : ¬ free := by
  intro hfree
  obtain ⟨b, hb, -⟩ := h.1 hfree
  cases hb

theorem Decides.ok (hfree : free) (h : Q a) : Decides free (.ok a : Except ε α) Q :=
  ⟨fun _ => ⟨a, rfl, h⟩, fun hnot => absurd hfree hnot⟩

theorem Decides.error (hnot : ¬ free) : Decides free (.error e : Except ε α) Q :=
  ⟨fun hfree => absurd hfree hnot, fun _ => ⟨e, rfl⟩⟩

end Decides

/-! ## One message -/

theorem Threads.create_of_free {db : Database} (createdAt : Int) {externalId : Option String}
    (subject : Option String)
    (hfree : ¬ Threads.ExternalTaken db account externalId)
    (haccount : (Accounts.get db account).isSome) :
    ∃ db', Threads.create db createdAt account externalId subject =
        .ok (Threads.newRow db createdAt account externalId subject, db') ∧
      db'.threads = db.threads ++ [Threads.newRow db createdAt account externalId subject] := by
  unfold Threads.create
  rw [dif_neg hfree, if_neg]
  · exact ⟨_, rfl, rfl⟩
  · rw [Option.isNone_iff_eq_none]
    intro hnone
    rw [hnone] at haccount
    exact absurd haccount Bool.false_ne_true

/-- A message that joins a known thread changes no row of it yet. -/
theorem Tracks.join {keys : List (ThreadId × Option (AccountId × String))} (h : Tracks k p keys) :
    Tracks { k with inserted := k.inserted + 1 } { p with inserted := p.inserted + 1 } keys where
  external := h.external
  views := h.views
  inserted := by
    rw [h.inserted]
  rows := h.rows

/-- A message that starts a thread. -/
theorem Tracks.start {keys : List (ThreadId × Option (AccountId × String))} (h : Tracks k p keys)
    (thread : ThreadId) (lastMessageAt : Int) :
    Tracks
      { external := k.external ++ (parsed.messageId.map (account, ·)).toList
        threads := k.threads ++ [startedRef 0 parsed lastMessageAt]
        inserted := k.inserted + 1 }
      { refs := p.refs ++ [startedRef thread parsed lastMessageAt]
        inserted := p.inserted + 1 }
      (keys ++ [(thread, parsed.messageId.map (account, ·))]) where
  external := by
    rw [h.external, List.filterMap_append]
    cases parsed.messageId with
    | none => rfl
    | some id => rfl
  views := by
    simp only [List.map_append, h.views]
    rfl
  inserted := by
    rw [h.inserted]
  rows := by
    intro r hr
    rw [List.map_append, List.mem_append]
    rcases List.mem_append.mp hr with hold | hnew
    · exact .inl (h.rows r hold)
    · rw [List.mem_singleton.mp hnew]
      exact .inr (List.mem_singleton.mpr rfl)

/-- Picking a thread. -/
theorem wp_threadFor_clean (hclean : env.Clean) (hparsed : parsedOf mail fetched = some parsed)
    (haccount : (Accounts.get w.db account).isSome) (htracks : Tracks k p w.threadKeys) :
    Fallible.wp (handle env) (threadFor mail account p fetched parsed) w (fun r u =>
      Decides (k.clashes mail account env.clock fetched = false) r fun (thread, refs) =>
        Tracks (k.after mail account env.clock fetched) { refs, inserted := p.inserted + 1 }
          u.threadKeys ∧ thread ∈ u.threadKeys.map (·.1)) := by
  have hafter : k.after mail account env.clock fetched =
      k.store mail account env.clock fetched parsed := by
    unfold Known.after
    rw [hparsed]
  have hclashes : k.clashes mail account env.clock fetched =
      (k.assigned mail env.clock parsed == .new &&
        parsed.messageId.any fun id => k.external.contains (account, id)) := by
    unfold Known.clashes
    rw [hparsed]
    rfl
  rw [hafter, hclashes]
  refine Fallible.wp_ask_bind _ ?_
  show Fallible.wp (handle env)
    (match assignThread mail.caseMap (env.clock (.assignThread p.inserted)) parsed p.refs with
      | .existing id => _
      | .new => _) w _
  cases hassign : assignThread mail.caseMap (env.clock (.assignThread p.inserted)) parsed p.refs with
  | existing id =>
    have hnot : k.assigned mail env.clock parsed ≠ .new := by
      rw [Ne, htracks.assigned_new env.clock, hassign]
      exact fun h => nomatch h
    obtain ⟨id', hid'⟩ : ∃ id', k.assigned mail env.clock parsed = .existing id' := by
      cases h : k.assigned mail env.clock parsed with
      | existing id' => exact ⟨id', rfl⟩
      | new => exact absurd h hnot
    rw [Fallible.wp_pure]
    refine .ok (by rw [hid']; rfl) ⟨?_, ?_⟩
    · unfold Known.store
      rw [hid']
      exact htracks.join
    · obtain ⟨r, hr, rfl⟩ := assignThread_existing hassign
      exact htracks.rows r hr
  | new =>
    have hnew : k.assigned mail env.clock parsed = .new := (htracks.assigned_new env.clock).mpr hassign
    have htaken : (k.assigned mail env.clock parsed == .new &&
        parsed.messageId.any fun id => k.external.contains (account, id)) = false ↔
        ¬ Threads.ExternalTaken w.db account parsed.messageId := by
      rw [externalTaken_iff, hnew, htracks.external, Bool.not_eq_true]
      rfl
    refine Fallible.wp_ask_bind _ ?_
    show Fallible.wp (handle env) (SyncM.ofDb (update env _ w).1 >>= _) (update env _ w).2 _
    by_cases hclash : Threads.ExternalTaken w.db account parsed.messageId
    · have hrefused : Threads.create w.db (env.dbClock w.db.nextId) account parsed.messageId
          parsed.subject = .error (.unique "threads.external_id") := by
        unfold Threads.create
        rw [dif_pos hclash]
      rw [update_refused hclean hrefused]
      exact .error fun h => htaken.mp h hclash
    · obtain ⟨db, hcreate, hthreads⟩ := Threads.create_of_free (env.dbClock w.db.nextId)
        parsed.subject hclash haccount
      have hkeys : (w.wrote db).threadKeys = w.threadKeys ++
          [(w.db.nextId, parsed.messageId.map (account, ·))] := by
        unfold World.threadKeys
        rw [show (w.wrote db).db.threads = _ from hthreads, List.map_append]
        rfl
      have hclock : env.clock (.threadRef k.inserted) = env.clock (.threadRef p.inserted) := by
        rw [htracks.inserted]
      refine wp_clean_update hclean hcreate (wp_orNow_bind ?_)
      rw [Fallible.wp_pure]
      refine .ok (htaken.mpr hclash) ⟨?_, ?_⟩
      · unfold Known.store
        rw [hnew, hkeys, hclock]
        exact htracks.start _ _
      · rw [hkeys, List.map_append]
        exact List.mem_append_right _ (List.mem_singleton.mpr rfl)

theorem threadKeys_touch (db : Database) (id : ThreadId) (time : Int) :
    (Threads.touchLastMessageAt db id time).threads.map (fun th => (th.id, th.externalKey)) =
      db.threads.map fun th => (th.id, th.externalKey) := by
  refine map_updateWhere ?_ db.threads
  exact fun _ => rfl

theorem threadKeys_refresh (db : Database) (id : ThreadId) :
    (Threads.refreshAggregates db id).threads.map (fun th => (th.id, th.externalKey)) =
      db.threads.map fun th => (th.id, th.externalKey) := by
  refine map_updateWhere ?_ db.threads
  exact fun _ => rfl

theorem wp_ingestParsed_clean (hclean : env.Clean) (hparsed : parsedOf mail fetched = some parsed)
    (hready : Ready account folder w) (htracks : Tracks k p w.threadKeys)
    (hfree : ¬ Messages.UidTaken w.db folder (uidOf fetched))
    (hsize : ∀ a ∈ parsed.attachments, a.data.length ≤ maxAttachmentBytes) :
    Fallible.wp (handle env) (ingestParsed mail account folder p fetched parsed) w (fun r u =>
      Decides (k.clashes mail account env.clock fetched = false) r fun q =>
        Tracks (k.after mail account env.clock fetched) q u.threadKeys) := by
  have hquiet := exec_quiet env (only_threadFor (fun _ => rfl) (fun _ _ _ => rfl) mail
    account p fetched parsed) w
  have hminted : KeepsMinted env (threadFor mail account p fetched parsed) :=
    .of_noFile (only_threadFor (fun _ _ h => nomatch h) (fun _ _ _ _ h => nomatch h) mail account p
      fetched parsed)
  have hready' := hready.of_grows (.of_quiet hquiet) (hminted w)
  refine Fallible.wp_bind _ (Fallible.wp_mono _ (Fallible.wp_and _
    (wp_threadFor_clean hclean hparsed hready.account htracks)
    (T := fun _ u => Quiet w u ∧ Ready account folder u) ⟨hquiet, hready'⟩) ?_)
  intro r t ⟨hdecides, ht, hready''⟩
  constructor
  · rintro ⟨thread, refs⟩ rfl
    obtain ⟨hno, htracks', hthread⟩ := hdecides.of_ok
    refine wp_orNow_bind (Fallible.wp_bind _ (Fallible.wp_mono _ (wp_storeMessage_clean hclean
      (buildMessageRow account folder thread fetched parsed _) hready'' ?_ ?_ hsize) ?_))
    · intro ⟨m, hm, hkey⟩
      rw [ht.messages] at hm
      exact hfree ⟨m, hm, hkey⟩
    · intro id hid
      obtain rfl : thread = id := Option.some.inj hid
      exact mem_threadKeys.mp hthread
    · intro r' u ⟨⟨row, hrow⟩, hthreads⟩
      refine ⟨?_, fun e he => ?_⟩
      · intro row' _
        refine wp_orNow_bind (Fallible.wp_ask_bind _ (wp_clean_update hclean rfl
          (Fallible.wp_ask_bind _ (wp_clean_update hclean rfl (Fallible.wp_ask_bind _ ?_)))))
        have hkeys : u.threadKeys = t.threadKeys := by
          unfold World.threadKeys
          rw [hthreads]
        rw [← hkeys] at htracks'
        refine .ok hno ?_
        show Tracks _ _ ((Threads.refreshAggregates (Threads.touchLastMessageAt u.db thread _)
          thread).threads.map _)
        rw [threadKeys_refresh, threadKeys_touch]
        exact htracks'
      · rw [hrow] at he
        cases he
  · rintro e rfl
    exact .error hdecides.of_error

/-- Every attachment is within the size limit. -/
def WithinLimit (mail : MailCrate) (m : FetchedMessage) : Prop :=
  ∀ parsed, parsedOf mail m = some parsed →
    ∀ a ∈ parsed.attachments, a.data.length ≤ maxAttachmentBytes

theorem wp_ingest_clean (hclean : env.Clean) {already : List Int} (hnew : uidOf fetched ∉ already)
    (hready : Ready account folder w) (htracks : Tracks k p w.threadKeys)
    (hfree : ¬ Messages.UidTaken w.db folder (uidOf fetched)) (hlimit : WithinLimit mail fetched) :
    Fallible.wp (handle env) (ingest mail account folder already p fetched) w (fun r u =>
      Decides (k.clashes mail account env.clock fetched = false) r fun q =>
        Tracks (k.after mail account env.clock fetched) q u.threadKeys) := by
  have hskip : parsedOf mail fetched = none →
      k.clashes mail account env.clock fetched = false ∧
        k.after mail account env.clock fetched = k := by
    intro hnone
    unfold Known.clashes Known.after
    rw [hnone]
    exact ⟨rfl, rfl⟩
  unfold ingest
  split_ifs with halready hraw
  · rw [List.contains_iff_mem] at halready
    exact absurd halready hnew
  · obtain ⟨hno, hsame⟩ := hskip (if_pos hraw)
    rw [Fallible.wp_pure, hsame]
    exact .ok hno htracks
  · have hparsed : parsedOf mail fetched = mail.parse fetched.raw := if_neg hraw
    split
    · next hparse =>
      obtain ⟨hno, hsame⟩ := hskip (hparsed.trans hparse)
      rw [Fallible.wp_pure, hsame]
      exact .ok hno htracks
    · next parsed hparse =>
      exact wp_ingestParsed_clean hclean (hparsed.trans hparse) hready htracks hfree
        (hlimit parsed (hparsed.trans hparse))

/-- The messages of a list that are not among the given UIDs. -/
def unseen (already : List Int) (messages : List FetchedMessage) : List FetchedMessage :=
  messages.filter fun m => !already.contains (uidOf m)

/-- A whole answer, by induction on its messages: a row that was just inserted has
another UID than the messages still to come. -/
theorem wp_ingestAll_clean (hclean : env.Clean) {already : List Int}
    {messages : List FetchedMessage} (hready : Ready account folder w)
    (htracks : Tracks k p w.threadKeys) (hnodup : (messages.map uidOf).Nodup)
    (hfree : ∀ m ∈ messages, uidOf m ∉ already → ¬ Messages.UidTaken w.db folder (uidOf m))
    (hlimit : ∀ m ∈ messages, WithinLimit mail m) :
    Fallible.wp (handle env) (ingestAll mail account folder already messages p) w (fun r u =>
      Decides (k.Free mail account env.clock (unseen already messages)) r fun q =>
        Tracks ((unseen already messages).foldl (fun k m => k.after mail account env.clock m) k) q
          u.threadKeys) := by
  induction messages generalizing k p w with
  | nil => exact .ok trivial htracks
  | cons m rest ih =>
    rw [List.map_cons, List.nodup_cons] at hnodup
    have hfree' : ∀ {u : World} {rows : List Message}, Grows w u rows →
        (∀ row ∈ rows, RowOf mail account folder m row ∧ uidOf m ∉ already) →
        ∀ m' ∈ rest, uidOf m' ∉ already → ¬ Messages.UidTaken u.db folder (uidOf m') := by
      intro u rows hgrows hrows m' hm' hnot ⟨row, hrow, hfolder, huid⟩
      rw [hgrows.messages] at hrow
      rcases List.mem_append.mp hrow with hold | hnew
      · exact hfree m' (List.mem_cons_of_mem _ hm') hnot ⟨row, hold, hfolder, huid⟩
      · refine hnodup.1 ?_
        rw [← (hrows row hnew).1.uid, huid]
        exact List.mem_map_of_mem hm'
    have hlimit' : ∀ m ∈ rest, WithinLimit mail m := fun m' hm' =>
      hlimit m' (List.mem_cons_of_mem _ hm')
    have hgeneral : Fallible.wp (handle env) (ingest mail account folder already p m) w _ :=
      wp_ingest already p m w
    have hkeeps : KeepsMinted env (ingest mail account folder already p m) :=
      keepsMinted_ingest account folder already p m
    have hminted := hkeeps w
    by_cases hseen : uidOf m ∈ already
    · -- the message is skipped
      have hunseen : unseen already (m :: rest) = unseen already rest := by
        unfold unseen
        rw [List.filter_cons_of_neg]
        simpa using hseen
      have hskip : ingest mail account folder already p m = pure p := by
        unfold ingest
        rw [if_pos (List.contains_iff_mem.mpr hseen)]
      rw [hunseen]
      refine Fallible.wp_bind _ ?_
      rw [hskip, Fallible.wp_pure]
      refine ⟨fun q hq => ?_, fun _ h => nomatch h⟩
      obtain rfl : p = q := Except.ok.inj hq
      exact ih hready htracks hnodup.2 (hfree' (.of_quiet (Quiet.refl w)) fun _ h => nomatch h)
        hlimit'
    · have hunseen : unseen already (m :: rest) = m :: unseen already rest := by
        unfold unseen
        rw [List.filter_cons_of_pos]
        simpa using hseen
      rw [hunseen]
      refine Fallible.wp_bind _ (Fallible.wp_mono _ (Fallible.wp_and _ (wp_ingest_clean hclean hseen
        hready htracks (hfree m List.mem_cons_self hseen) (hlimit m List.mem_cons_self))
        (Fallible.wp_and _ hgeneral (T := fun _ u => Minted w u) hminted)) ?_)
      intro r u ⟨hdecides, ⟨rows, hgrows, hrows, _⟩, hminted⟩
      constructor
      · rintro q rfl
        obtain ⟨hno, htracks'⟩ := hdecides.of_ok
        refine Fallible.wp_mono _ (ih (hready.of_grows hgrows hminted) htracks' hnodup.2
          (hfree' hgrows hrows) hlimit') ?_
        intro r' v hrest
        exact ⟨fun hall => hrest.1 hall.2, fun hnot => hrest.2 fun hall => hnot ⟨hno, hall⟩⟩
      · rintro e rfl
        exact .error fun hall => hdecides.of_error hall.1

end Postblox.Sync
