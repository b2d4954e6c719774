import Postblox.Mail.Reply

/-!
# Recipients of a reply to all

The addresses carried over are told apart by `lowerKey`, trimmed and in lower case, but
what is noted down for one that was carried over is its lower case alone. An address
written with blanks around it is therefore not recognised when it is given again.
-/
namespace Postblox.Mail

open Lib

theorem length_asciiLowercase (s : String) : (asciiLowercase s).length = s.length := by
  rw [asciiLowercase, ← String.length_toList, String.toList_ofList, List.length_map,
    String.length_toList]

theorem asciiLowercase_eq_empty {s : String} : asciiLowercase s = "" ↔ s = "" := by
  rw [← String.length_eq_zero_iff, length_asciiLowercase, String.length_eq_zero_iff]

theorem lowerKey_eq_empty {s : String} : lowerKey s = "" ↔ trimmed s = "" :=
  asciiLowercase_eq_empty

theorem isWhitespace_toLower (c : Char) : isWhitespace c.toLower = isWhitespace c := by
  by_cases hc : c.isUpper = true
  · have hcode : 65 ≤ c.toNat ∧ c.toNat ≤ 90 := by
      simpa [Char.isUpper, UInt32.le_iff_toNat_le, ← Char.toNat_val] using hc
    have hlower : c.toLower.toNat = c.toNat + 32 := by
      rw [Char.toLower_eq_of_isUpper hc, Char.toNat_ofNat, if_pos (Or.inl (by omega))]
    have hword : ∀ n, 65 ≤ n → n ≤ 122 → ∀ d : Char, d.toNat = n → isWhitespace d = false := by
      intro n hlow hhigh d hd
      simp only [isWhitespace, hd, Bool.or_eq_false_iff, Bool.and_eq_false_iff,
        decide_eq_false_iff_not, beq_eq_false_iff_ne]
      omega
    rw [hword _ (by omega) (by omega) c.toLower hlower,
      hword c.toNat (by omega) (by omega) c rfl]
  · rw [Char.toLower_eq_of_not_isUpper hc]

theorem trimStart_toLower (s : List Char) :
    trimStart (s.map Char.toLower) = (trimStart s).map Char.toLower := by
  rw [trimStart, trimStart, List.dropWhile_map]
  have hblank : isWhitespace ∘ Char.toLower = isWhitespace := funext isWhitespace_toLower
  rw [hblank]

theorem trimmed_asciiLowercase (s : String) : trimmed (asciiLowercase s) = lowerKey s := by
  rw [lowerKey, trimmed, trimmed, asciiLowercase, asciiLowercase, String.toList_ofList,
    String.toList_ofList, trim, trim, trimStart_toLower, ← List.map_reverse, trimStart_toLower,
    ← List.map_reverse]

/-- What is noted down for an address is what later ones are looked up by only where the
address has no blanks around it. -/
theorem asciiLowercase_eq_lowerKey {a b : String} :
    asciiLowercase a = lowerKey b ↔ trimmed a = a ∧ lowerKey a = lowerKey b := by
  constructor
  · intro h
    have hkey : lowerKey a = lowerKey b := by
      rw [← trimmed_asciiLowercase a, h, ← trimmed_asciiLowercase b, trimmed_trimmed]
    have hlength : (trimmed a).length = a.length := by
      rw [← length_asciiLowercase a, h, ← hkey, lowerKey, length_asciiLowercase]
    have hlist : (trim a.toList).length = (trimmed a).length := by
      rw [trimmed, ← String.length_toList, String.toList_ofList]
    have htrim : trim a.toList = a.toList := by
      rw [trim_eq_strip] at hlist ⊢
      apply strip_eq_of_length
      rw [hlist, hlength, String.length_toList]
    exact ⟨by rw [trimmed, htrim, String.ofList_toList], hkey⟩
  · intro h
    rw [← h.2, lowerKey, h.1]

section CarryOver

variable {seen : List String} {recipients : List String} {a : String}

theorem containsLower_iff : containsLower seen a = true ↔ lowerKey a ∈ seen := by
  rw [containsLower, List.contains_iff_mem]

theorem carryOver_skips {rest : List String} (h : trimmed a = "" ∨ lowerKey a ∈ seen) :
    carryOver seen (a :: rest) = carryOver seen rest := by
  rw [carryOver, if_neg]
  rintro ⟨hwritten, hnew⟩
  cases h with
  | inl hblank => exact hwritten hblank
  | inr hmem => simp [containsLower_iff.mpr hmem] at hnew

theorem carryOver_takes {rest : List String} (hwritten : trimmed a ≠ "")
    (hnew : lowerKey a ∉ seen) :
    carryOver seen (a :: rest) = a :: carryOver (seen ++ [asciiLowercase a]) rest := by
  rw [carryOver, if_pos]
  refine ⟨hwritten, ?_⟩
  rw [← containsLower_iff] at hnew
  simpa using hnew

theorem carryOver_sublist (seen recipients : List String) :
    (carryOver seen recipients).Sublist recipients := by
  induction recipients generalizing seen with
  | nil => exact List.Sublist.refl []
  | cons a rest ih =>
    by_cases h : trimmed a = "" ∨ lowerKey a ∈ seen
    · rw [carryOver_skips h]
      exact (ih seen).cons a
    · rw [not_or] at h
      rw [carryOver_takes h.1 h.2]
      exact (ih _).cons_cons a

theorem of_mem_carryOver (h : a ∈ carryOver seen recipients) :
    trimmed a ≠ "" ∧ lowerKey a ∉ seen := by
  induction recipients generalizing seen with
  | nil => cases h
  | cons b rest ih =>
    by_cases hb : trimmed b = "" ∨ lowerKey b ∈ seen
    · rw [carryOver_skips hb] at h
      exact ih h
    · rw [not_or] at hb
      rw [carryOver_takes hb.1 hb.2] at h
      cases h with
      | head => exact hb
      | tail _ htail =>
        obtain ⟨hwritten, hnew⟩ := ih htail
        exact ⟨hwritten, fun hmem => hnew (List.mem_append_left _ hmem)⟩

/-- Whoever is written and not seen before gets a copy, under one spelling or another. -/
theorem mem_carryOver (hmem : a ∈ recipients) (hwritten : trimmed a ≠ "")
    (hnew : lowerKey a ∉ seen) : lowerKey a ∈ (carryOver seen recipients).map lowerKey := by
  induction recipients generalizing seen with
  | nil => cases hmem
  | cons b rest ih =>
    by_cases hb : trimmed b = "" ∨ lowerKey b ∈ seen
    · rw [carryOver_skips hb]
      cases hmem with
      | head => exact absurd hb (not_or.mpr ⟨hwritten, hnew⟩)
      | tail _ htail => exact ih htail hnew
    · rw [not_or] at hb
      rw [carryOver_takes hb.1 hb.2, List.map_cons]
      by_cases hkey : lowerKey a = lowerKey b
      · rw [hkey]
        exact List.mem_cons_self
      · apply List.mem_cons_of_mem
        cases hmem with
        | head => exact absurd rfl hkey
        | tail _ htail =>
          apply ih htail
          rw [List.mem_append, List.mem_singleton, not_or]
          exact ⟨hnew, fun h => hkey (asciiLowercase_eq_lowerKey.mp h.symm).2.symm⟩

/-- No address that would be carried over for the first time is written with blanks around
it and given again further on. -/
def PaddedOnce (seen recipients : List String) : Prop :=
  ∀ before a after, recipients = before ++ a :: after → trimmed a ≠ "" → trimmed a ≠ a →
    lowerKey a ∉ seen → lowerKey a ∉ before.map lowerKey → lowerKey a ∉ after.map lowerKey

theorem paddedOnce_nil (seen : List String) : PaddedOnce seen [] := by
  intro before a after h
  simp at h

theorem paddedOnce_skips {rest : List String} (h : trimmed a = "" ∨ lowerKey a ∈ seen) :
    PaddedOnce seen (a :: rest) ↔ PaddedOnce seen rest := by
  constructor
  · intro hall before b after hrest hwritten hpadded hnew hfirst
    apply hall (a :: before) b after (by rw [hrest, List.cons_append]) hwritten hpadded hnew
    rw [List.map_cons, List.mem_cons, not_or]
    refine ⟨fun hkey => ?_, hfirst⟩
    cases h with
    | inl hblank =>
      rw [← lowerKey_eq_empty] at hblank
      exact hwritten (lowerKey_eq_empty.mp (hkey.trans hblank))
    | inr hmem =>
      rw [hkey] at hnew
      exact hnew hmem
  · intro hall before b after hrest hwritten hpadded hnew hfirst
    cases before with
    | nil =>
      rw [List.nil_append, List.cons.injEq] at hrest
      rw [hrest.1] at h
      exact absurd h (not_or.mpr ⟨hwritten, hnew⟩)
    | cons c before =>
      rw [List.cons_append, List.cons.injEq] at hrest
      rw [List.map_cons, List.mem_cons, not_or] at hfirst
      exact hall before b after hrest.2 hwritten hpadded hnew hfirst.2

theorem paddedOnce_takes {rest : List String} (hwritten : trimmed a ≠ "")
    (hnew : lowerKey a ∉ seen) :
    PaddedOnce seen (a :: rest) ↔
      (trimmed a ≠ a → lowerKey a ∉ rest.map lowerKey) ∧
        PaddedOnce (seen ++ [asciiLowercase a]) rest := by
  constructor
  · intro hall
    have hhere : trimmed a ≠ a → lowerKey a ∉ rest.map lowerKey := fun hpadded =>
      hall [] a rest rfl hwritten hpadded hnew List.not_mem_nil
    refine ⟨hhere, ?_⟩
    intro before b after hrest hb hpadded hunseen hfirst
    rw [List.mem_append, List.mem_singleton, not_or] at hunseen
    apply hall (a :: before) b after (by rw [hrest, List.cons_append]) hb hpadded hunseen.1
    rw [List.map_cons, List.mem_cons, not_or]
    refine ⟨fun hkey => ?_, hfirst⟩
    by_cases ha : trimmed a = a
    · exact hunseen.2 (asciiLowercase_eq_lowerKey.mpr ⟨ha, hkey.symm⟩).symm
    · apply hhere ha
      rw [hrest, ← hkey, List.map_append, List.map_cons]
      exact List.mem_append_right _ List.mem_cons_self
  · rintro ⟨hhere, hall⟩ before b after hrest hb hpadded hunseen hfirst
    cases before with
    | nil =>
      rw [List.nil_append, List.cons.injEq] at hrest
      rw [← hrest.1] at hpadded ⊢
      rw [← hrest.2]
      exact hhere hpadded
    | cons c before =>
      rw [List.cons_append, List.cons.injEq] at hrest
      rw [List.map_cons, List.mem_cons, not_or] at hfirst
      apply hall before b after hrest.2 hb hpadded ?_ hfirst.2
      rw [List.mem_append, List.mem_singleton, not_or]
      refine ⟨hunseen, fun h => hfirst.1 ?_⟩
      rw [← (asciiLowercase_eq_lowerKey.mp h.symm).2, hrest.1]

theorem carryOver_nodup_iff (seen recipients : List String) :
    ((carryOver seen recipients).map lowerKey).Nodup ↔ PaddedOnce seen recipients := by
  induction recipients generalizing seen with
  | nil => exact iff_of_true List.nodup_nil (paddedOnce_nil seen)
  | cons a rest ih =>
    by_cases h : trimmed a = "" ∨ lowerKey a ∈ seen
    · rw [carryOver_skips h, paddedOnce_skips h, ih]
    · rw [not_or] at h
      rw [carryOver_takes h.1 h.2, paddedOnce_takes h.1 h.2, List.map_cons, List.nodup_cons, ih]
      apply and_congr_left
      intro _
      by_cases ha : trimmed a = a
      · -- the note is the key here, so no later spelling gets past it
        refine iff_of_true (fun hmem => ?_) (fun hpadded => absurd ha hpadded)
        obtain ⟨b, hb, hkey⟩ := List.mem_map.mp hmem
        apply (of_mem_carryOver hb).2
        rw [hkey, asciiLowercase_eq_lowerKey.mpr ⟨ha, rfl⟩]
        exact List.mem_append_right _ (List.mem_singleton_self _)
      · rw [imp_iff_right ha]
        constructor
        · intro hcarried hmem
          obtain ⟨b, hb, hkey⟩ := List.mem_map.mp hmem
          have hb' : trimmed b ≠ "" := by
            rw [Ne, ← lowerKey_eq_empty, hkey, lowerKey_eq_empty]
            exact h.1
          apply hcarried
          rw [← hkey]
          apply mem_carryOver hb hb'
          rw [hkey, List.mem_append, List.mem_singleton, not_or]
          exact ⟨h.2, fun hnote => ha (asciiLowercase_eq_lowerKey.mp hnote.symm).1⟩
        · intro hrest hcarried
          exact hrest (((carryOver_sublist _ rest).map lowerKey).subset hcarried)

end CarryOver

theorem mem_pushLower {seen : List String} {addr k : String} :
    k ∈ pushLower seen addr ↔ k ∈ seen ∨ (k = lowerKey addr ∧ k ≠ "") := by
  unfold pushLower
  split
  next h =>
    rw [List.mem_append, List.mem_singleton]
    constructor
    · rintro (hmem | rfl)
      · exact Or.inl hmem
      · exact Or.inr ⟨rfl, h.1⟩
    · rintro (hmem | ⟨hk, -⟩)
      · exact Or.inl hmem
      · exact Or.inr hk
  next h =>
    rw [not_and_or, not_not] at h
    constructor
    · exact Or.inl
    · rintro (hmem | ⟨rfl, hk⟩)
      · exact hmem
      · cases h with
        | inl hblank => exact absurd hblank hk
        | inr hseen => simpa using hseen

/-- The original recipients, in the order they are looked at. -/
def originalRecipients (message : MessageView) : List String := message.toAddrs ++ message.ccAddrs

/-- What a reply to all owes the original recipients. Addresses are compared trimmed and in
lower case. -/
structure ReachesAllOnce (message : MessageView) (accountEmail : String) (draft : ReplyDraft) :
    Prop where
  once : ((draft.toAddrs ++ draft.ccAddrs).map lowerKey).Nodup
  notOwn : lowerKey accountEmail ∉ draft.ccAddrs.map lowerKey
  kept : ∀ a ∈ originalRecipients message, trimmed a ≠ "" → lowerKey a ≠ lowerKey accountEmail →
    lowerKey a ∈ (draft.toAddrs ++ draft.ccAddrs).map lowerKey
  inOrder : draft.ccAddrs.Sublist (originalRecipients message)

/-- No recipient that is neither the account nor who is replied to is first written with
blanks around it and then given again. -/
def NoPaddedRepeat (message : MessageView) (accountEmail : String) : Prop :=
  ∀ before a after, originalRecipients message = before ++ a :: after →
    trimmed a ≠ "" → trimmed a ≠ a → lowerKey a ≠ lowerKey accountEmail →
    lowerKey a ≠ lowerKey (primaryReplyTarget message) →
    lowerKey a ∉ before.map lowerKey → lowerKey a ∉ after.map lowerKey

section ReplyAll

variable (formatRfc2822 : Int → RenderedDate) (message : MessageView) (accountEmail : String)

/-- What is taken as seen before the first recipient. -/
def seenFirst : List String :=
  ((if primaryReplyTarget message = "" then [] else [primaryReplyTarget message]) ++
    [accountEmail]).foldl pushLower []

def carried : List String := carryOver (seenFirst message accountEmail) (originalRecipients message)

theorem mem_seenFirst {k : String} (hk : k ≠ "") :
    k ∈ seenFirst message accountEmail ↔
      k = lowerKey (primaryReplyTarget message) ∨ k = lowerKey accountEmail := by
  unfold seenFirst
  split
  next h =>
    have hkey : lowerKey "" = "" := lowerKey_eq_empty.mpr rfl
    simp only [List.nil_append, List.foldl_cons, List.foldl_nil, mem_pushLower, h, hkey, hk,
      List.not_mem_nil, false_or, ne_eq, not_false_eq_true, and_true]
  next h =>
    simp only [List.singleton_append, List.foldl_cons, List.foldl_nil, mem_pushLower, hk,
      List.not_mem_nil, false_or, ne_eq, not_false_eq_true, and_true]

theorem paddedOnce_iff :
    PaddedOnce (seenFirst message accountEmail) (originalRecipients message) ↔
      NoPaddedRepeat message accountEmail := by
  have hseen : ∀ a, trimmed a ≠ "" → (lowerKey a ∉ seenFirst message accountEmail ↔
      lowerKey a ≠ lowerKey accountEmail ∧
        lowerKey a ≠ lowerKey (primaryReplyTarget message)) := by
    intro a ha
    rw [mem_seenFirst _ _ (lowerKey_eq_empty.not.mpr ha), not_or, and_comm]
  constructor
  · intro hall before a after h hwritten hpadded hown htarget
    exact hall before a after h hwritten hpadded ((hseen a hwritten).mpr ⟨hown, htarget⟩)
  · intro hall before a after h hwritten hpadded hnew
    obtain ⟨hown, htarget⟩ := (hseen a hwritten).mp hnew
    exact hall before a after h hwritten hpadded hown htarget

/-- Whom the draft is addressed to: the reply target, and after it those carried over. -/
theorem replyDraft_addresses :
    (replyDraft formatRfc2822 message accountEmail true).toAddrs ++
        (replyDraft formatRfc2822 message accountEmail true).ccAddrs =
      (if primaryReplyTarget message = "" then [] else [primaryReplyTarget message]) ++
        carried message accountEmail := by
  simp only [replyDraft, Bool.true_and, if_true, carried, seenFirst, originalRecipients]
  by_cases h : primaryReplyTarget message = ""
  · simp only [h, if_true, List.isEmpty_nil, List.take_append_drop, List.nil_append]
  · simp only [h, if_false, List.isEmpty_cons, Bool.false_eq_true]

theorem replyDraft_cc_sublist :
    (replyDraft formatRfc2822 message accountEmail true).ccAddrs.Sublist
      (carried message accountEmail) := by
  simp only [replyDraft, Bool.true_and, if_true, carried, seenFirst, originalRecipients]
  split
  · exact List.drop_sublist 1 _
  · exact List.Sublist.refl _

theorem carried_ne {k : String} (h : k ∈ (carried message accountEmail).map lowerKey) :
    k ≠ lowerKey (primaryReplyTarget message) ∧ k ≠ lowerKey accountEmail := by
  obtain ⟨a, ha, rfl⟩ := List.mem_map.mp h
  obtain ⟨hwritten, hnew⟩ := of_mem_carryOver ha
  rw [mem_seenFirst _ _ (lowerKey_eq_empty.not.mpr hwritten), not_or] at hnew
  exact hnew

theorem addressed_nodup_iff :
    (((replyDraft formatRfc2822 message accountEmail true).toAddrs ++
        (replyDraft formatRfc2822 message accountEmail true).ccAddrs).map lowerKey).Nodup ↔
      NoPaddedRepeat message accountEmail := by
  rw [replyDraft_addresses, ← paddedOnce_iff, ← carryOver_nodup_iff, ← carried, List.map_append]
  by_cases h : primaryReplyTarget message = ""
  · rw [if_pos h, List.map_nil, List.nil_append]
  · rw [if_neg h, List.map_singleton, List.singleton_append, List.nodup_cons]
    exact and_iff_right fun hmem => (carried_ne message accountEmail hmem).1 rfl

/-- A reply to all reaches every recipient once, in order, and never the account, exactly
when no address written with blanks around it is given again. -/
theorem reply_all_reaches_once_iff :
    ReachesAllOnce message accountEmail (replyDraft formatRfc2822 message accountEmail true) ↔
      NoPaddedRepeat message accountEmail := by
  constructor
  · intro h
    exact (addressed_nodup_iff formatRfc2822 message accountEmail).mp h.once
  · intro h
    have hcc := replyDraft_cc_sublist formatRfc2822 message accountEmail
    refine ⟨(addressed_nodup_iff formatRfc2822 message accountEmail).mpr h, ?_, ?_,
      hcc.trans (carryOver_sublist _ _)⟩
    · intro hown
      exact (carried_ne message accountEmail ((hcc.map lowerKey).subset hown)).2 rfl
    · intro a ha hwritten hown
      rw [replyDraft_addresses, List.map_append, List.mem_append]
      by_cases htarget : lowerKey a = lowerKey (primaryReplyTarget message)
      · apply Or.inl
        have hsome : primaryReplyTarget message ≠ "" := by
          intro hnone
          rw [hnone] at htarget
          exact hwritten (lowerKey_eq_empty.mp (htarget.trans (lowerKey_eq_empty.mpr rfl)))
        rw [if_neg hsome, htarget]
        exact List.mem_singleton_self _
      · apply Or.inr
        apply mem_carryOver ha hwritten
        rw [mem_seenFirst _ _ (lowerKey_eq_empty.not.mpr hwritten), not_or]
        exact ⟨htarget, hown⟩

end ReplyAll

/-- One recipient, once with a blank in front and once without. -/
def paddedTwice : MessageView where
  fromAddr := "ada@example.com"
  replyTo := none
  subject := none
  messageIdHeader := none
  referencesHeader := none
  toAddrs := [" bob@example.com", "bob@example.com"]
  ccAddrs := []
  textBody := none
  htmlBody := none
  internalDate := 0

theorem padded_recipient_gets_two_copies :
    ¬ ∀ (formatRfc2822 : Int → RenderedDate) (message : MessageView) (accountEmail : String),
      ReachesAllOnce message accountEmail
        (replyDraft formatRfc2822 message accountEmail true) := by
  intro h
  have honce := (h (fun _ => ⟨"", (by decide)⟩) paddedTwice "me@example.com").once
  revert honce
  decide +kernel

end Postblox.Mail
