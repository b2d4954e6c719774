import Postblox.Sync.Commands

/-!
# Attachment persistence

Each parsed attachment of a message is written to a new file below the message's
own directory, then recorded in the `attachments` table. File names are cut down
to a safe leaf first.
-/
namespace Postblox.Attachments

open Lib Db Mail Sync

/-- 25 MiB. -/
def maxAttachmentBytes : Nat := 25 * 1024 * 1024

inductive AttachmentError where
  | tooLarge (filename : String) (limit : Nat)
  | badPath (path : StoredPath)
  | db (error : DbError)
  | io (error : IoError)
  deriving DecidableEq

/-- `Path::file_name`: the last component, unless it is `..`. -/
def fileName (path : List Char) : Option (List Char) :=
  match ((path.splitOn '/').filter fun c => c ≠ [] ∧ c ≠ ['.']).getLast? with
  | none => none
  | some leaf => if leaf = ['.', '.'] then none else some leaf

def safeChar (c : Char) : Char :=
  if c.isAlphanum || c == '.' || c == '-' || c == '_' || c == ' ' then c else '_'

def trimMatches (p : Char → Bool) (s : List Char) : List Char :=
  ((s.dropWhile p).reverse.dropWhile p).reverse

def sanitizeFilename (filename : String) : String :=
  let leaf := (fileName filename.toList).getD filename.toList
  let out := trim (trimMatches (fun c => c == '.' || c == ' ') ((leaf.take 120).map safeChar))
  if out = [] then "attachment.bin" else String.ofList out

/-- `{:03}`. -/
def pad3 (n : Nat) : String :=
  let digits := toString n
  String.ofList (List.replicate (3 - digits.length) '0') ++ digits

def storedAttachmentPath (root : String) (message : MessageId) (index : Nat) (filename : String) :
    StoredPath where
  root := root
  messageId := message
  leaf := pad3 (index + 1) ++ "_" ++ sanitizeFilename filename

def rowDisposition : Disposition → AttachmentDisposition
  | .inlined => .inlined
  | .attachment => .attachment

def newAttachment (message : MessageId) (path : StoredPath) (attachment : ParsedAttachment) :
    NewAttachment where
  messageId := message
  filename := sanitizeFilename attachment.filename
  contentType := attachment.contentType
  contentId := attachment.contentId
  sizeBytes := attachment.data.length
  disposition := rowDisposition attachment.disposition
  storagePath := path

abbrev Persist := Fallible AttachmentError Cmd Reply

def Persist.ofDb {α : Type} : Except DbError α → Persist α
  | .ok a => pure a
  | .error e => throw (.db e)

def Persist.ofIo {α : Type} : Except IoError α → Persist α
  | .ok a => pure a
  | .error e => throw (.io e)

/-- The body of the loop: check the size, write the file, insert the row and read
it back. A stored path always has a parent, so `badPath` never arises. -/
def persistOne (root : String) (message : MessageId) (index : Nat)
    (attachment : ParsedAttachment) : Persist Unit := do
  if maxAttachmentBytes < attachment.data.length then
    throw (.tooLarge attachment.filename maxAttachmentBytes)
  else
    let path := storedAttachmentPath root message index attachment.filename
    Persist.ofIo (← perform (.writeNewFile path))
    let row ← Persist.ofDb (← perform (.createAttachment (newAttachment message path attachment)))
    Persist.ofDb (← perform (.getAttachment row.id))

def persistFrom (root : String) (message : MessageId) : Nat → List ParsedAttachment → Persist Unit
  | _, [] => pure ()
  | index, attachment :: rest => do
    persistOne root message index attachment
    persistFrom root message (index + 1) rest

def persistParsedForMessage (message : MessageId) (attachments : List ParsedAttachment) :
    Persist Unit := do
  if attachments.isEmpty then pure ()
  else
    let root ← Persist.ofDb (← perform .attachmentRoot)
    persistFrom root message 0 attachments

/-! ## File names -/

theorem pad3_toList (n : Nat) :
    (pad3 n).toList = List.replicate (3 - (toString n).length) '0' ++ Nat.toDigits 10 n := by
  unfold pad3
  rw [String.toList_append, String.toList_ofList]
  simp [toString, Nat.repr]

private theorem value_pad3 (n : Nat) : Nat.ofDigitChars 10 (pad3 n).toList 0 = n := by
  rw [pad3_toList, Nat.ofDigitChars_append, Nat.ofDigitChars_replicate_zero, Nat.mul_zero]
  exact Nat.ofDigitChars_ten_toDigits

private theorem underscore_notMem_pad3 (n : Nat) : '_' ∉ (pad3 n).toList := by
  rw [pad3_toList, List.mem_append]
  intro h
  rcases h with hzero | hdigit
  · exact absurd (List.eq_of_mem_replicate hzero) (by decide)
  · exact Nat.underscore_not_in_toDigits hdigit

/-- The number is what stands before the underscore. -/
theorem leaf_inj {i j : Nat} {x y : String} (h : pad3 i ++ "_" ++ x = pad3 j ++ "_" ++ y) :
    i = j := by
  have hnumber : ∀ (n : Nat) (x : String),
      (pad3 n ++ "_" ++ x).toList.takeWhile (fun c => c ≠ '_') = (pad3 n).toList := by
    intro n x
    have hlist : (pad3 n ++ "_" ++ x).toList = (pad3 n).toList ++ '_' :: x.toList := by
      simp [String.toList_append]
    rw [hlist, List.takeWhile_append_of_pos]
    · simp
    · intro c hc
      rw [decide_eq_true_eq]
      rintro rfl
      exact underscore_notMem_pad3 n hc
  have hpad : (pad3 i).toList = (pad3 j).toList := by
    rw [← hnumber i x, h, hnumber]
  have hvalue := value_pad3 i
  rw [hpad, value_pad3] at hvalue
  exact hvalue.symm

/-- The running number keeps the files of one message apart. -/
theorem storedAttachmentPath_inj {root : String} {message : MessageId} {i j : Nat}
    {filename filename' : String}
    (h : storedAttachmentPath root message i filename =
      storedAttachmentPath root message j filename') : i = j := by
  unfold storedAttachmentPath at h
  rw [StoredPath.mk.injEq] at h
  exact Nat.succ_injective (leaf_inj h.2.2)

end Postblox.Attachments
