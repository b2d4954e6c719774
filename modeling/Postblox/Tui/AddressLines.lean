import Postblox.AttachmentPaths
import Postblox.Tui.Composer

/-!
# Addresses in one line

The composer shows a list of addresses as one text and cuts the text again when it saves. An
address comes back if it is written without blanks at its ends and without the characters the
line is cut at; only then does the list.
-/
namespace Postblox.Tui

open Lib

/-- An address that the composer can tell from its neighbours. -/
structure PlainAddress (address : String) : Prop where
  trimmed : Mail.trimmed address = address
  nonempty : address ≠ ""
  uncut : ∀ c ∈ address.toList, isAddressSeparator c = false

/-- The parts of a cut line are plain. -/
theorem plainAddress_of_mem {value address : String} (h : address ∈ splitAddresses value) :
    PlainAddress address := by
  obtain ⟨part, hpart, rfl⟩ := List.mem_map.mp h
  obtain ⟨hpart, hne⟩ := List.mem_filter.mp hpart
  obtain ⟨piece, hpiece, rfl⟩ := List.mem_map.mp hpart
  have hpart_ne : Mail.trim piece ≠ [] := by simpa using hne
  refine ⟨?_, ?_, ?_⟩
  · rw [Mail.trimmed, String.toList_ofList, Mail.trim_eq_strip, Mail.trim_eq_strip, strip_strip]
  · intro heq
    apply hpart_ne
    rw [← String.toList_ofList (l := Mail.trim piece), heq]
    rfl
  · intro c hc
    rw [String.toList_ofList, Mail.trim_eq_strip] at hc
    exact not_of_mem_splitOnP hpiece (Attachments.mem_of_mem_strip hc)

/-- The parts of a text, cut at separators and trimmed. -/
def addressParts (chars : List Char) : List (List Char) :=
  ((chars.splitOnP isAddressSeparator).map Mail.trim).filter (· ≠ [])

theorem addressParts_blank (chars : List Char) : addressParts (' ' :: chars) = addressParts chars := by
  have hblank : ¬ isAddressSeparator ' ' = true := by decide
  obtain ⟨first, others, hsplit⟩ :=
    List.exists_cons_of_ne_nil (List.splitOnP_ne_nil isAddressSeparator chars)
  have htrim : Mail.trim (' ' :: first) = Mail.trim first := by
    rw [Mail.trim_eq_strip, Mail.trim_eq_strip]
    apply @strip_blank_append _ _ [' '] first
    intro c hc
    rw [List.mem_singleton.mp hc]
    decide
  rw [addressParts, addressParts, List.splitOnP_cons_eq_if_modifyHead, if_neg hblank, hsplit,
    List.modifyHead_cons, List.map_cons, List.map_cons, htrim]

theorem addressParts_cons {address : String} (h : PlainAddress address) (rest : List Char) :
    addressParts (address.toList ++ ',' :: rest) = address.toList :: addressParts rest := by
  have hne : address.toList ≠ [] := fun hnil => h.nonempty (String.toList_eq_nil_iff.mp hnil)
  rw [addressParts, List.splitOnP_append_cons _ _ (by decide), List.splitOnP_eq_singleton,
    List.singleton_append, List.map_cons, Mail.trimmed_toList h.trimmed,
    List.filter_cons_of_pos (by simpa using hne)]
  · rfl
  · exact h.uncut

theorem addressParts_join {addresses : List String} (h : ∀ a ∈ addresses, PlainAddress a) :
    addressParts (joinAddresses addresses).toList = addresses.map (·.toList) := by
  rw [joinAddresses, String.toList_intercalate]
  induction addresses with
  | nil => decide
  | cons first rest ih =>
    rw [List.forall_mem_cons] at h
    cases rest with
    | nil =>
      have hne : first.toList ≠ [] := fun hnil => h.1.nonempty (String.toList_eq_nil_iff.mp hnil)
      rw [List.map_singleton, List.intercalate_singleton, addressParts, List.splitOnP_eq_singleton,
        List.map_singleton, Mail.trimmed_toList h.1.trimmed,
        List.filter_cons_of_pos (by simpa using hne)]
      · rfl
      · exact h.1.uncut
    | cons second others =>
      have hrest := ih h.2
      rw [List.map_cons, List.map_cons, List.intercalate_cons_cons]
      have hcomma : ", ".toList = [',', ' '] := by decide
      rw [List.append_assoc, hcomma, List.cons_append, List.cons_append, List.nil_append,
        addressParts_cons h.1, addressParts_blank]
      rw [hcomma, List.map_cons] at hrest
      rw [hrest]

/-- A list of addresses survives the line it is shown in exactly if its addresses are plain. -/
theorem splitAddresses_joinAddresses_iff (addresses : List String) :
    splitAddresses (joinAddresses addresses) = addresses ↔ ∀ a ∈ addresses, PlainAddress a := by
  constructor
  · intro h a ha
    rw [← h] at ha
    exact plainAddress_of_mem ha
  · intro h
    show (addressParts (joinAddresses addresses).toList).map String.ofList = addresses
    rw [addressParts_join h, List.map_map]
    have hid : String.ofList ∘ (fun a : String => a.toList) = id := by
      funext a
      exact String.ofList_toList
    rw [hid, List.map_id]

/-- A text survives if it is not blank. -/
theorem nonEmptyString_getD_iff (text : Option String) :
    nonEmptyString (text.getD "") = text ↔ ∀ s, text = some s → Mail.trimmed s ≠ "" := by
  cases text with
  | none => exact ⟨fun _ s h => (nomatch h), fun _ => by decide⟩
  | some s =>
    rw [Option.getD_some, nonEmptyString]
    constructor
    · intro h other heq hblank
      obtain rfl := Option.some.inj heq
      rw [if_pos hblank] at h
      cases h
    · intro h
      rw [if_neg (h s rfl)]

end Postblox.Tui
