import Postblox.Attachments
import Postblox.Lib.Strip
import Postblox.Uuid

/-!
# Where attachments are stored

The path of a stored attachment as text: the root, the id of the message, and a leaf made of
a running number and a file name cut down to harmless characters. Whatever the mail calls an
attachment, its file lies directly in the directory of its message and no other attachment
gets the same path.
-/
namespace Postblox.Attachments

open Lib Mail

/-- `Path::join`. -/
def joinPath (base path : String) : String :=
  if path.toList.head? = some '/' then path
  else if base.toList.getLast?.all (· = '/') then base ++ path
  else base ++ "/" ++ path

/-- `stored_attachment_path` as text. -/
def storedPathText (root : String) (message : Uuid) (index : Nat) (filename : String) : String :=
  joinPath (joinPath root message.hyphenated)
    (pad3 (index + 1) ++ "_" ++ sanitizeFilename filename)

/-- One component of a path, and neither the directory itself nor its parent. -/
def IsLeaf (name : String) : Prop :=
  name ≠ "" ∧ name ≠ "." ∧ name ≠ ".." ∧ '/' ∉ name.toList

/-- The characters of a file name in the store. -/
def Harmless (c : Char) : Prop := c.isAlphanum = true ∨ c ∈ ['.', '-', '_', ' ']

/-- What is cut off at the ends of a file name. -/
def dotOrSpace (c : Char) : Bool := c == '.' || c == ' '

/-- A file name as the store has them. -/
structure StoredName (file : String) : Prop where
  nonempty : file.toList ≠ []
  bounded : file.toList.length ≤ 120
  harmless : ∀ c ∈ file.toList, Harmless c
  head : ∀ c, file.toList.head? = some c → dotOrSpace c = false
  last : ∀ c, file.toList.getLast? = some c → dotOrSpace c = false

/-! ## File names -/

theorem harmless_safeChar (c : Char) : Harmless (safeChar c) := by
  unfold safeChar
  split_ifs with h
  · simp only [Bool.or_eq_true, beq_iff_eq] at h
    unfold Harmless
    rcases h with (((h | rfl) | rfl) | rfl) | rfl
    · exact .inl h
    all_goals exact .inr (by decide)
  · exact .inr (by decide)

theorem safeChar_of_harmless {c : Char} (h : Harmless c) : safeChar c = c := by
  unfold safeChar
  rw [if_pos]
  simp only [Bool.or_eq_true, beq_iff_eq]
  rcases h with h | h
  · simp [h]
  · simp only [List.mem_cons, List.not_mem_nil, or_false] at h
    tauto

theorem slash_not_harmless : ¬ Harmless '/' := by
  rintro (h | h)
  · exact absurd h (by decide)
  · exact absurd h (by decide)

theorem not_white_of_isAlphanum {c : Char} (h : c.isAlphanum = true) : isWhitespace c = false := by
  have hrange : 48 ≤ c.toNat ∧ c.toNat ≤ 57 ∨ 65 ≤ c.toNat ∧ c.toNat ≤ 90 ∨
      97 ≤ c.toNat ∧ c.toNat ≤ 122 := by
    simp only [Char.isAlphanum, Char.isAlpha, Char.isUpper, Char.isLower, Char.isDigit,
      Bool.or_eq_true, Bool.and_eq_true, decide_eq_true_eq, ge_iff_le, UInt32.le_iff_toNat_le] at h
    simp only [Char.toNat]
    simp at h ⊢
    omega
  unfold isWhitespace
  simp only [Bool.or_eq_false_iff, Bool.and_eq_false_iff, decide_eq_false_iff_not,
    beq_eq_false_iff_ne]
  omega

/-- Of the characters of a stored name only the space is white. -/
theorem dotOrSpace_of_white {c : Char} (h : Harmless c) (hwhite : isWhitespace c = true) :
    dotOrSpace c = true := by
  rcases h with h | h
  · rw [not_white_of_isAlphanum h] at hwhite
    cases hwhite
  · revert hwhite
    simp only [List.mem_cons, List.not_mem_nil, or_false] at h
    rcases h with rfl | rfl | rfl | rfl <;> decide

/-- The name as it is before an empty one gets its default. -/
def cutName (filename : String) : List Char :=
  strip dotOrSpace ((((fileName filename.toList).getD filename.toList).take 120).map safeChar)

theorem mem_of_mem_strip {p : Char → Bool} {s : List Char} {c : Char} (h : c ∈ strip p s) :
    c ∈ s := by
  obtain ⟨front, back, -, -, hs⟩ := exists_strip p s
  rw [hs]
  exact List.mem_append_left _ (List.mem_append_right _ h)

theorem harmless_cutName {filename : String} {c : Char} (h : c ∈ cutName filename) :
    Harmless c := by
  obtain ⟨c', -, rfl⟩ := List.mem_map.mp (mem_of_mem_strip h)
  exact harmless_safeChar c'

theorem ends_cutName (filename : String) :
    (∀ c, (cutName filename).head? = some c → dotOrSpace c = false) ∧
      ∀ c, (cutName filename).getLast? = some c → dotOrSpace c = false :=
  strip_eq_self_iff.mp (strip_strip dotOrSpace _)

/-- The second trim finds nothing left to cut. -/
theorem trim_eq_self {s : List Char} (hharmless : ∀ c ∈ s, Harmless c)
    (hhead : ∀ c, s.head? = some c → dotOrSpace c = false)
    (hlast : ∀ c, s.getLast? = some c → dotOrSpace c = false) : trim s = s := by
  have hwhite : ∀ c ∈ s, dotOrSpace c = false → isWhitespace c = false := by
    intro c hc hdot
    by_contra h
    rw [dotOrSpace_of_white (hharmless c hc) (by simpa using h)] at hdot
    cases hdot
  rw [show trim s = strip isWhitespace s from rfl, strip_eq_self_iff]
  constructor
  · exact fun c hc => hwhite c (List.mem_of_head? hc) (hhead c hc)
  · exact fun c hc => hwhite c (List.mem_of_getLast? hc) (hlast c hc)

theorem sanitizeFilename_eq (filename : String) :
    sanitizeFilename filename =
      if cutName filename = [] then "attachment.bin" else String.ofList (cutName filename) := by
  have htrim : trim (cutName filename) = cutName filename :=
    trim_eq_self (fun c hc => harmless_cutName hc) (ends_cutName filename).1
      (ends_cutName filename).2
  have hcut : trimMatches (fun c => c == '.' || c == ' ')
      ((((fileName filename.toList).getD filename.toList).take 120).map safeChar) =
      cutName filename := rfl
  unfold sanitizeFilename
  dsimp only
  rw [hcut, htrim]

theorem storedName_sanitizeFilename (filename : String) : StoredName (sanitizeFilename filename) := by
  rw [sanitizeFilename_eq]
  split_ifs with hempty
  · have hchars : "attachment.bin".toList =
        ['a', 't', 't', 'a', 'c', 'h', 'm', 'e', 'n', 't', '.', 'b', 'i', 'n'] := rfl
    refine ⟨?_, ?_, ?_, ?_, ?_⟩
    · rw [hchars]
      exact List.cons_ne_nil _ _
    · rw [hchars, List.length_cons]
      simp
    · rw [hchars]
      simp [Harmless, Char.isAlphanum, Char.isAlpha]
    · rw [hchars]
      simp [dotOrSpace]
    · rw [hchars]
      simp [dotOrSpace]
  · have hlength : (cutName filename).length ≤ 120 := by
      apply (length_strip_le _ _).trans
      rw [List.length_map, List.length_take]
      omega
    refine ⟨?_, ?_, ?_, ?_, ?_⟩
    · rwa [String.toList_ofList]
    · rwa [String.toList_ofList]
    · rw [String.toList_ofList]
      exact fun c hc => harmless_cutName hc
    · rw [String.toList_ofList]
      exact (ends_cutName filename).1
    · rw [String.toList_ofList]
      exact (ends_cutName filename).2

/-- A stored name is its own file name. -/
theorem StoredName.fileName {file : String} (h : StoredName file) :
    Attachments.fileName file.toList = some file.toList := by
  have hslash : '/' ∉ file.toList := fun hmem => slash_not_harmless (h.harmless _ hmem)
  have hdot : file.toList ≠ ['.'] := by
    intro heq
    have hhead := h.head '.' (by rw [heq]; rfl)
    exact absurd hhead (by decide)
  have hdots : file.toList ≠ ['.', '.'] := by
    intro heq
    have hhead := h.head '.' (by rw [heq]; rfl)
    exact absurd hhead (by decide)
  unfold Attachments.fileName
  rw [List.splitOn_eq_singleton hslash, List.filter_cons_of_pos (by simp [h.nonempty, hdot])]
  simp [hdots]

/-- A stored name stays as it is. -/
theorem StoredName.sanitize {file : String} (h : StoredName file) : sanitizeFilename file = file := by
  have hcut : cutName file = file.toList := by
    unfold cutName
    rw [h.fileName, Option.getD_some, List.take_of_length_le h.bounded]
    have hsafe : file.toList.map safeChar = file.toList := by
      conv_rhs => rw [← List.map_id file.toList]
      exact List.map_congr_left fun c hc => safeChar_of_harmless (h.harmless c hc)
    rw [hsafe, strip_eq_self_iff]
    exact ⟨h.head, h.last⟩
  rw [sanitizeFilename_eq, hcut, if_neg h.nonempty, String.ofList_toList]

/-! ## Paths -/

theorem not_slash_pad3 (n : Nat) : '/' ∉ (pad3 n).toList := by
  rw [pad3_toList, List.mem_append]
  rintro (hzero | hdigit)
  · exact absurd (List.eq_of_mem_replicate hzero) (by decide)
  · exact absurd (Nat.isDigit_of_mem_toDigits (by decide) (by decide) hdigit) (by decide)

/-- The leaf of a stored path is one component. -/
theorem isLeaf_numbered (n : Nat) {file : String} (h : StoredName file) :
    IsLeaf (pad3 n ++ "_" ++ file) := by
  have hlist : (pad3 n ++ "_" ++ file).toList = (pad3 n).toList ++ '_' :: file.toList := by
    simp [String.toList_append]
  have hmem : '_' ∈ (pad3 n ++ "_" ++ file).toList := by
    rw [hlist]
    exact List.mem_append_right _ List.mem_cons_self
  refine ⟨?_, ?_, ?_, ?_⟩
  · intro heq
    rw [heq] at hmem
    exact absurd hmem (by decide)
  · intro heq
    rw [heq] at hmem
    exact absurd hmem (by decide)
  · intro heq
    rw [heq] at hmem
    exact absurd hmem (by decide)
  · rw [hlist, List.mem_append, List.mem_cons]
    rintro (hnumber | hunder | hfile)
    · exact not_slash_pad3 n hnumber
    · exact absurd hunder (by decide)
    · exact slash_not_harmless (h.harmless _ hfile)

/-- The base with the slash that a join puts behind it. -/
def slashed (base : String) : String :=
  if base.toList.getLast?.all (· = '/') then base else base ++ "/"

theorem joinPath_relative (base : String) {path : String} (h : '/' ∉ path.toList) :
    joinPath base path = slashed base ++ path := by
  unfold joinPath slashed
  rw [if_neg fun hhead => h (List.mem_of_head? hhead)]
  split_ifs
  · rfl
  · rfl

theorem slashed_of_last {base : String} {c : Char} (hlast : base.toList.getLast? = some c)
    (h : c ≠ '/') : slashed base = base ++ "/" := by
  unfold slashed
  rw [hlast, if_neg (by simpa using h)]

theorem not_slash_hyphenated (u : Uuid) : '/' ∉ u.hyphenated.toList := by
  have hchar : ∀ d, Uuid.hexChar d ≠ '/' := by decide
  have hhex : ∀ ds, '/' ∉ Uuid.hex ds := by
    intro ds hmem
    obtain ⟨d, -, hd⟩ := List.mem_map.mp hmem
    exact hchar d hd
  rw [Uuid.hyphenated, String.toList_ofList, Uuid.hyphenatedChars]
  simp [hhex]

/-- The directory of a message ends with its id. -/
theorem slashed_messageDir (root : String) (message : Uuid) :
    slashed (joinPath root message.hyphenated) = joinPath root message.hyphenated ++ "/" := by
  have hne : message.hyphenated.toList ≠ [] := by
    intro hnil
    have hlength := message.length_hyphenatedChars
    rw [Uuid.hyphenated, String.toList_ofList] at hnil
    rw [hnil] at hlength
    cases hlength
  have hlast : (joinPath root message.hyphenated).toList.getLast? =
      some (message.hyphenated.toList.getLast hne) := by
    rw [joinPath_relative root (not_slash_hyphenated message), String.toList_append,
      List.getLast?_append, List.getLast?_eq_some_getLast hne, Option.some_or]
  apply slashed_of_last hlast
  intro heq
  exact not_slash_hyphenated message (heq ▸ List.getLast_mem hne)

theorem storedPathText_eq (root : String) (message : Uuid) (index : Nat) (filename : String) :
    storedPathText root message index filename =
      joinPath root message.hyphenated ++ "/" ++
        (pad3 (index + 1) ++ "_" ++ sanitizeFilename filename) := by
  have hleaf := isLeaf_numbered (index + 1) (storedName_sanitizeFilename filename)
  rw [storedPathText, joinPath_relative _ hleaf.2.2.2, slashed_messageDir]

theorem storedPathText_inj {root : String} {message message' : Uuid} {index index' : Nat}
    {filename filename' : String}
    (h : storedPathText root message index filename =
      storedPathText root message' index' filename') : message = message' ∧ index = index' := by
  rw [storedPathText_eq, storedPathText_eq, joinPath_relative root (not_slash_hyphenated message),
    joinPath_relative root (not_slash_hyphenated message')] at h
  have hlist := congrArg String.toList h
  simp only [String.toList_append, List.append_assoc] at hlist
  have hrest := List.append_cancel_left hlist
  have hlength : message.hyphenated.toList.length = message'.hyphenated.toList.length := by
    rw [Uuid.hyphenated, Uuid.hyphenated, String.toList_ofList, String.toList_ofList,
      Uuid.length_hyphenatedChars, Uuid.length_hyphenatedChars]
  obtain ⟨hid, hleaf⟩ := List.append_inj hrest hlength
  constructor
  · have hparse := Uuid.parseStr_hyphenated message
    rw [String.toList_inj.mp hid, Uuid.parseStr_hyphenated] at hparse
    exact (Option.some.inj hparse).symm
  · have hname : pad3 (index + 1) ++ "_" ++ sanitizeFilename filename =
        pad3 (index' + 1) ++ "_" ++ sanitizeFilename filename' := by
      rw [← String.toList_inj]
      simpa [String.toList_append] using hleaf
    exact Nat.succ_injective (leaf_inj hname)

/-- The file of an attachment lies directly in the directory of its message, under its number
and a harmless name; no other number and no other message has that path; and a name that was
cut down once is not cut again. -/
theorem stored_paths_are_confined (root : String) (message : Uuid) (index : Nat)
    (filename : String) :
    (∃ name file, storedPathText root message index filename =
        joinPath root message.hyphenated ++ "/" ++ name ∧ IsLeaf name ∧
        name = pad3 (index + 1) ++ "_" ++ file ∧ StoredName file) ∧
      (∀ message' index' filename', (message, index) ≠ (message', index') →
        storedPathText root message index filename ≠
          storedPathText root message' index' filename') ∧
      sanitizeFilename (sanitizeFilename filename) = sanitizeFilename filename := by
  have hfile := storedName_sanitizeFilename filename
  refine ⟨⟨_, sanitizeFilename filename, storedPathText_eq root message index filename,
    isLeaf_numbered (index + 1) hfile, rfl, hfile⟩, ?_, hfile.sanitize⟩
  intro message' index' filename' hne hsame
  obtain ⟨rfl, rfl⟩ := storedPathText_inj hsame
  exact hne rfl

end Postblox.Attachments
