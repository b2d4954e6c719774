import Postblox.Lib.Lists
import Postblox.Mail.ReplyChain
import Postblox.Tui.CommandNames
import Postblox.Tui.ComposerKeys

/-!
# The command line

A `:`-line is cut into words; the first one is the command, and for a folder the rest of
the line counts with its blanks. The table of the names serves the completion and the
parser has them once more; the two agree. A command is written back as the line that a
user would type for it.
-/
namespace Postblox.Tui

open Lib Mail

inductive ThemeName where
  | dark
  | light
  | highContrast
  deriving DecidableEq

def ThemeName.asStr : ThemeName → String
  | .light => "light"
  | .dark => "dark"
  | .highContrast => "high-contrast"

/-- `ThemeName::from_str`. -/
def ThemeName.parse : String → Option ThemeName
  | "light" => some .light
  | "dark" => some .dark
  | "high-contrast" | "hc" => some .highContrast
  | _ => none

inductive Command where
  | sync
  | startSync
  | stopSync
  | seen
  | unseen
  | flag
  | unflag
  | archive
  | approvals
  | approve
  | delete
  | deny
  | move (folder : String)
  | themeNext
  | theme (name : ThemeName)
  | compose
  | reply
  | replyAll
  | forward
  | goto (folder : String)
  | help
  | account (name : String)
  | search (account : Option String) (query : String)
  | write
  deriving DecidableEq

inductive CommandError where
  | empty
  | unknown (name : String)
  | usage (text : String)
  deriving DecidableEq

/-! ## The parser -/

def parseNoArgs (command : Command) (usage : String) : List String → Except CommandError Command
  | [] => .ok command
  | _ :: _ => .error (.usage usage)

/-- What is behind the command, without its surrounding blanks. -/
def remainderAfterToken (input token : String) : List Char :=
  let trimmed := trimStart input.toList
  if token.toList <+: trimmed then trimmed.drop token.toList.length else trimmed

def usageFor : String → CommandError
  | "move" => .usage "move <folder>"
  | "goto" => .usage "goto <folder>"
  | _ => .usage "missing argument"

def parseRemainder (input token : String) (parts : List String) : Except CommandError String :=
  if parts.isEmpty then .error (usageFor token)
  else
    let value := trim (remainderAfterToken input token)
    if value.isEmpty then .error (usageFor token) else .ok (String.ofList value)

def parseAccount : List String → Except CommandError Command
  | [name] => .ok (.account name)
  | [] | _ :: _ :: _ => .error (.usage "account <name|email>")

def searchUsage : CommandError := .usage "search [--account <name>] <query>"

/-- The loop of `parse_search`. -/
def readSearch (account : Option String) (query : List String) :
    List String → Except CommandError (Option String × List String)
  | [] => .ok (account, query)
  | "--account" :: value :: rest =>
    if account.isSome then .error searchUsage else readSearch (some value) query rest
  | ["--account"] => .error searchUsage
  | part :: rest => readSearch account (query ++ [part]) rest

def parseSearch (parts : List String) : Except CommandError Command :=
  match readSearch none [] parts with
  | .error e => .error e
  | .ok (account, query) =>
    if query.isEmpty then .error searchUsage else .ok (.search account (" ".intercalate query))

def themeUsage : CommandError := .usage "theme next|light|dark|high-contrast"

def parseTheme : List String → Except CommandError Command
  | ["next"] => .ok .themeNext
  | [name] =>
    match ThemeName.parse name with
    | some theme => .ok (.theme theme)
    | none => .error themeUsage
  | [] | _ :: _ :: _ => .error themeUsage

def parseCommand (input : String) : Except CommandError Command :=
  match splitWhitespace input with
  | [] => .error .empty
  | name :: parts =>
    match name with
    | "sync" => parseNoArgs .sync "sync" parts
    | "start-sync" => parseNoArgs .startSync "start-sync" parts
    | "stop-sync" => parseNoArgs .stopSync "stop-sync" parts
    | "seen" => parseNoArgs .seen "seen" parts
    | "unseen" => parseNoArgs .unseen "unseen" parts
    | "flag" => parseNoArgs .flag "flag" parts
    | "unflag" => parseNoArgs .unflag "unflag" parts
    | "archive" => parseNoArgs .archive "archive" parts
    | "approvals" => parseNoArgs .approvals "approvals" parts
    | "approve" => parseNoArgs .approve "approve" parts
    | "delete" => parseNoArgs .delete "delete" parts
    | "deny" => parseNoArgs .deny "deny" parts
    | "compose" => parseNoArgs .compose "compose" parts
    | "reply" => parseNoArgs .reply "reply" parts
    | "reply-all" => parseNoArgs .replyAll "reply-all" parts
    | "forward" => parseNoArgs .forward "forward" parts
    | "help" => parseNoArgs .help "help" parts
    | "w" => parseNoArgs .write "w" parts
    | "move" => (parseRemainder input "move" parts).map .move
    | "goto" => (parseRemainder input "goto" parts).map .goto
    | "account" => parseAccount parts
    | "search" => parseSearch parts
    | "theme" => parseTheme parts
    | other => .error (.unknown other)

/-! ## What is accepted reads back -/

/-- The line that stands for a command. -/
def Command.line : Command → String
  | .sync => "sync"
  | .startSync => "start-sync"
  | .stopSync => "stop-sync"
  | .seen => "seen"
  | .unseen => "unseen"
  | .flag => "flag"
  | .unflag => "unflag"
  | .archive => "archive"
  | .approvals => "approvals"
  | .approve => "approve"
  | .delete => "delete"
  | .deny => "deny"
  | .move folder => "move" ++ " " ++ folder
  | .themeNext => "theme next"
  | .theme name => "theme" ++ " " ++ name.asStr
  | .compose => "compose"
  | .reply => "reply"
  | .replyAll => "reply-all"
  | .forward => "forward"
  | .goto folder => "goto" ++ " " ++ folder
  | .help => "help"
  | .account name => "account" ++ " " ++ name
  | .search none query => "search" ++ " " ++ query
  | .search (some name) query => "search" ++ " " ++ "--account" ++ " " ++ name ++ " " ++ query
  | .write => "w"

/-- What a parsed command can hold: a folder keeps the blanks inside it, an account is one
word, and a query is words with one blank between them, none of which is the flag. -/
def Command.WellFormed : Command → Prop
  | .move folder | .goto folder => folder ≠ "" ∧ trimmed folder = folder
  | .account name => Unbroken name
  | .search whose query =>
    (∀ name ∈ whose, Unbroken name) ∧
      ∃ words ≠ [], (∀ word ∈ words, Unbroken word ∧ word ≠ "--account") ∧
        query = " ".intercalate words
  | _ => True

section Grammar

variable {line name token usage folder : String} {parts words query : List String}
  {account : Option String} {c command : Command}

theorem parseNoArgs_ok_iff : parseNoArgs command usage parts = .ok c ↔ parts = [] ∧ command = c := by
  cases parts <;> simp [parseNoArgs]

theorem trimmed_ne_empty (h : trimmed folder = folder) (hne : folder ≠ "") :
    splitWhitespace folder ≠ [] := by
  obtain ⟨ch, rest, hfolder⟩ := List.exists_cons_of_ne_nil (mt String.toList_eq_nil_iff.mp hne)
  have hhead : folder.toList.head? = some ch := by rw [hfolder]; rfl
  have hink : isWhitespace ch = false := by
    rw [← trimmed_toList h] at hhead
    exact head_trim hhead
  obtain ⟨word, others, hsplit, -⟩ := splitWhitespace_of_head hhead hink
  rw [hsplit]
  exact List.cons_ne_nil word others

theorem parseRemainder_ok (h : parseRemainder line token parts = .ok folder) :
    folder ≠ "" ∧ trimmed folder = folder := by
  simp only [parseRemainder] at h
  split at h
  · cases h
  · split at h
    · cases h
    next hvalue =>
      cases h
      refine ⟨by simpa using hvalue, ?_⟩
      rw [trimmed, String.toList_ofList, trim_eq_strip, trim_eq_strip, strip_strip]

/-- The blanks inside a folder's name are kept. -/
theorem parseRemainder_folder (hne : folder ≠ "") (h : trimmed folder = folder)
    (htoken : trimStart (token ++ " " ++ folder).toList = (token ++ " " ++ folder).toList) :
    parseRemainder (token ++ " " ++ folder) token (splitWhitespace folder) = .ok folder := by
  have hrest : remainderAfterToken (token ++ " " ++ folder) token = ' ' :: folder.toList := by
    simp only [remainderAfterToken, htoken]
    rw [String.append_assoc, String.toList_append, if_pos (List.prefix_append _ _), List.drop_left,
      String.toList_append]
    rfl
  have hblank : Blank isWhitespace [' '] := by
    intro ch hch
    rw [List.mem_singleton.mp hch]
    decide
  have htrim : trim (' ' :: folder.toList) = folder.toList := by
    have hskip := strip_blank_append (b := folder.toList) hblank
    rw [trim_eq_strip, ← List.singleton_append, hskip, ← trim_eq_strip, trimmed_toList h]
  have hwords : (splitWhitespace folder).isEmpty = false :=
    List.isEmpty_eq_false_iff.mpr (trimmed_ne_empty h hne)
  have hfolder : folder.toList.isEmpty = false :=
    List.isEmpty_eq_false_iff.mpr (mt String.toList_eq_nil_iff.mp hne)
  simp only [parseRemainder, hwords, hrest, htrim, hfolder, String.ofList_toList]
  rfl

theorem ok_of_map_ok {α β ε : Type} {f : α → β} {r : Except ε α} {b : β} (h : r.map f = .ok b) :
    ∃ a, r = .ok a ∧ f a = b := by
  cases r with
  | error e => cases h
  | ok a => exact ⟨a, rfl, Except.ok.inj h⟩

theorem parseAccount_ok (hparts : ∀ part ∈ parts, Unbroken part) (h : parseAccount parts = .ok c) :
    c.WellFormed := by
  unfold parseAccount at h
  split at h
  · cases h
    exact hparts _ List.mem_cons_self
  · cases h
  · cases h

theorem parseTheme_ok (h : parseTheme parts = .ok c) : c = .themeNext ∨ ∃ name, c = .theme name := by
  unfold parseTheme at h
  split at h
  · exact .inl (Except.ok.inj h).symm
  · split at h
    · exact .inr ⟨_, (Except.ok.inj h).symm⟩
    · cases h
  · cases h
  · cases h

/-- The flag's value and the words of the query come from the line. -/
theorem readSearch_ok {account' : Option String} {query' : List String}
    (h : readSearch account query parts = .ok (account', query')) :
    (∀ name ∈ account', name ∈ account ∨ name ∈ parts) ∧
      ∀ word ∈ query', word ∈ query ∨ word ∈ parts ∧ word ≠ "--account" := by
  fun_induction readSearch account query parts with
  | case1 account query =>
    cases h
    exact ⟨fun name hname => .inl hname, fun word hword => .inl hword⟩
  | case2 => cases h
  | case3 account query value rest hnone ih =>
    obtain ⟨hname, hword⟩ := ih h
    refine ⟨fun name hmem => ?_, fun word hmem => ?_⟩
    · rcases hname name hmem with hvalue | hrest
      · cases hvalue
        exact .inr (by simp)
      · exact .inr (by simp [hrest])
    · rcases hword word hmem with hold | ⟨hrest, hne⟩
      · exact .inl hold
      · exact .inr ⟨by simp [hrest], hne⟩
  | case4 => cases h
  | case5 account query part rest hflag hlast ih =>
    obtain ⟨hname, hword⟩ := ih h
    have hpart : part ≠ "--account" := by
      rintro rfl
      cases rest with
      | nil => exact hlast rfl rfl
      | cons value rest => exact hflag value rest rfl rfl
    refine ⟨fun name hmem => ?_, fun word hmem => ?_⟩
    · exact (hname name hmem).imp_right (List.mem_cons_of_mem part)
    · rcases hword word hmem with hold | ⟨hrest, hne⟩
      · rcases List.mem_append.mp hold with hquery | hthis
        · exact .inl hquery
        · obtain rfl := List.mem_singleton.mp hthis
          exact .inr ⟨List.mem_cons_self, hpart⟩
      · exact .inr ⟨List.mem_cons_of_mem part hrest, hne⟩

theorem readSearch_words (h : ∀ word ∈ words, word ≠ "--account") :
    readSearch account query words = .ok (account, query ++ words) := by
  induction words generalizing query with
  | nil => rw [readSearch, List.append_nil]
  | cons word words ih =>
    obtain ⟨hword, hwords⟩ := List.forall_mem_cons.mp h
    rw [readSearch, ih hwords, List.append_assoc, List.singleton_append]
    · intro value rest hflag
      exact absurd hflag hword
    · intro hflag
      exact absurd hflag hword

theorem parseSearch_ok (hparts : ∀ part ∈ parts, Unbroken part) (h : parseSearch parts = .ok c) :
    c.WellFormed := by
  unfold parseSearch at h
  split at h
  · cases h
  next account query hread =>
    split at h
    · cases h
    next hquery =>
      cases h
      obtain ⟨hname, hword⟩ := readSearch_ok hread
      refine ⟨fun name hmem => ?_, query, by simpa using hquery, fun word hmem => ?_, rfl⟩
      · rcases hname name hmem with hnone | hpart
        · cases hnone
        · exact hparts name hpart
      · rcases hword word hmem with hnone | ⟨hpart, hne⟩
        · cases hnone
        · exact ⟨hparts word hpart, hne⟩

theorem wellFormed_of_parseCommand (h : parseCommand line = .ok c) : c.WellFormed := by
  unfold parseCommand at h
  split at h
  · cases h
  next name parts hsplit =>
    have hparts : ∀ part ∈ parts, Unbroken part := fun part hpart =>
      unbroken_of_mem_splitWhitespace (hsplit ▸ List.mem_cons_of_mem name hpart)
    split at h
    iterate 18
      · obtain ⟨-, rfl⟩ := parseNoArgs_ok_iff.mp h
        exact trivial
    iterate 2
      · obtain ⟨folder, hfolder, rfl⟩ := ok_of_map_ok h
        exact parseRemainder_ok hfolder
    · exact parseAccount_ok hparts h
    · exact parseSearch_ok hparts h
    · rcases parseTheme_ok h with rfl | ⟨name, rfl⟩ <;> exact trivial
    · cases h

theorem unbroken_name (h : name ∈ commandNames) : Unbroken name := by
  have hall : ∀ name ∈ commandNames, Unbroken name := by decide
  exact hall name h

theorem splitWhitespace_command (h : name ∈ commandNames) (rest : String) :
    splitWhitespace (name ++ " " ++ rest) = name :: splitWhitespace rest := by
  rw [splitWhitespace_append_blank, splitWhitespace_unbroken (unbroken_name h),
    List.singleton_append]

theorem trimStart_command (h : name ∈ commandNames) (rest : String) :
    trimStart (name ++ " " ++ rest).toList = (name ++ " " ++ rest).toList := by
  obtain ⟨hne, hink⟩ := unbroken_name h
  obtain ⟨ch, tail, hname⟩ := List.exists_cons_of_ne_nil (mt String.toList_eq_nil_iff.mp hne)
  rw [String.append_assoc, String.toList_append, hname, List.cons_append]
  exact trimStart_of_not (hink ch (by rw [hname]; exact List.mem_cons_self))

theorem parseCommand_move (hne : folder ≠ "") (h : trimmed folder = folder) :
    parseCommand (Command.move folder).line = .ok (.move folder) := by
  have hname : "move" ∈ commandNames := by decide
  have hfolder := parseRemainder_folder hne h (trimStart_command hname folder)
  rw [Command.line, parseCommand, splitWhitespace_command hname]
  simp only [hfolder]
  rfl

theorem parseCommand_goto (hne : folder ≠ "") (h : trimmed folder = folder) :
    parseCommand (Command.goto folder).line = .ok (.goto folder) := by
  have hname : "goto" ∈ commandNames := by decide
  have hfolder := parseRemainder_folder hne h (trimStart_command hname folder)
  rw [Command.line, parseCommand, splitWhitespace_command hname]
  simp only [hfolder]
  rfl

theorem parseCommand_account (h : Unbroken name) :
    parseCommand (Command.account name).line = .ok (.account name) := by
  have hname : "account" ∈ commandNames := by decide
  rw [Command.line, parseCommand, splitWhitespace_command hname, splitWhitespace_unbroken h]
  rfl

theorem splitWhitespace_words (h : ∀ word ∈ words, Unbroken word) :
    splitWhitespace (" ".intercalate words) = words := by
  rw [splitWhitespace_intercalate, flatMap_unbroken h]

theorem parseSearch_words (hne : words ≠ []) (h : ∀ word ∈ words, word ≠ "--account") :
    parseSearch words = .ok (.search none (" ".intercalate words)) := by
  have hwords := List.isEmpty_eq_false_iff.mpr hne
  simp only [parseSearch, readSearch_words h, List.nil_append, hwords]
  rfl

theorem parseSearch_account (hne : words ≠ []) (h : ∀ word ∈ words, word ≠ "--account") :
    parseSearch ("--account" :: name :: words) =
      .ok (.search (some name) (" ".intercalate words)) := by
  have hwords := List.isEmpty_eq_false_iff.mpr hne
  have hread : readSearch none [] ("--account" :: name :: words) = .ok (some name, words) :=
    readSearch_words h
  simp only [parseSearch, hread, hwords]
  rfl

theorem parseCommand_search (hname : ∀ name ∈ account, Unbroken name) (hne : words ≠ [])
    (h : ∀ word ∈ words, Unbroken word ∧ word ≠ "--account") :
    parseCommand (Command.search account (" ".intercalate words)).line =
      .ok (.search account (" ".intercalate words)) := by
  have hsearch : "search" ∈ commandNames := by decide
  have hwords := splitWhitespace_words fun word hword => (h word hword).1
  have hplain : ∀ word ∈ words, word ≠ "--account" := fun word hword => (h word hword).2
  cases account with
  | none =>
    rw [Command.line, parseCommand, splitWhitespace_command hsearch, hwords]
    exact parseSearch_words hne hplain
  | some name =>
    have hflag : Unbroken "--account" := by decide
    have hsplit : splitWhitespace (Command.search (some name) (" ".intercalate words)).line =
        "search" :: "--account" :: name :: words := by
      rw [Command.line, splitWhitespace_append_blank, splitWhitespace_append_blank,
        splitWhitespace_command hsearch, splitWhitespace_unbroken hflag,
        splitWhitespace_unbroken (hname name rfl), hwords]
      rfl
    rw [parseCommand, hsplit]
    exact parseSearch_account hne hplain

theorem parseCommand_line (h : c.WellFormed) : parseCommand c.line = .ok c := by
  cases c with
  | move folder => exact parseCommand_move h.1 h.2
  | goto folder => exact parseCommand_goto h.1 h.2
  | account name => exact parseCommand_account h
  | search account query =>
    obtain ⟨hname, words, hne, hwords, rfl⟩ := h
    exact parseCommand_search hname hne hwords
  | theme name => cases name <;> decide
  | _ => decide

/-- A command can come out of the parser exactly if it is well formed, and then the line that
stands for it brings it back. -/
theorem commands_read_back (c : Command) :
    ((∃ line, parseCommand line = .ok c) ↔ c.WellFormed) ∧
      (c.WellFormed ↔ parseCommand c.line = .ok c) := by
  refine ⟨⟨?_, fun h => ⟨c.line, parseCommand_line h⟩⟩, parseCommand_line,
    wellFormed_of_parseCommand⟩
  rintro ⟨line, hline⟩
  exact wellFormed_of_parseCommand hline

example : parseCommand "  move   Lists/To  do " = .ok (.move "Lists/To  do") := by decide

end Grammar

/-! ## The table has the parser's names -/

section Names

variable {line name token usage : String} {parts : List String} {command : Command}
  {e : CommandError}

theorem parseNoArgs_error (h : parseNoArgs command usage parts = .error e) : e = .usage usage := by
  cases parts with
  | nil => cases h
  | cons part parts => exact (Except.error.inj h).symm

theorem parseRemainder_error (h : parseRemainder line token parts = .error e) :
    e = usageFor token := by
  simp only [parseRemainder] at h
  split at h
  · exact (Except.error.inj h).symm
  · split at h
    · exact (Except.error.inj h).symm
    · cases h

theorem parseAccount_error (h : parseAccount parts = .error e) : ∃ text, e = .usage text := by
  unfold parseAccount at h
  split at h
  · cases h
  · exact ⟨_, (Except.error.inj h).symm⟩
  · exact ⟨_, (Except.error.inj h).symm⟩

theorem readSearch_error {account : Option String} {query : List String}
    (h : readSearch account query parts = .error e) : e = searchUsage := by
  fun_induction readSearch account query parts with
  | case1 => cases h
  | case2 => exact (Except.error.inj h).symm
  | case3 account query value rest hnone ih => exact ih h
  | case4 => exact (Except.error.inj h).symm
  | case5 account query part rest hflag hlast ih => exact ih h

theorem parseSearch_error (h : parseSearch parts = .error e) : e = searchUsage := by
  unfold parseSearch at h
  split at h
  next e' hread =>
    obtain rfl := Except.error.inj h
    exact readSearch_error hread
  · split at h
    · exact (Except.error.inj h).symm
    · cases h

theorem parseTheme_error (h : parseTheme parts = .error e) : e = themeUsage := by
  unfold parseTheme at h
  split at h
  · cases h
  · split at h
    · cases h
    · exact (Except.error.inj h).symm
  · exact (Except.error.inj h).symm
  · exact (Except.error.inj h).symm

theorem error_of_map_error {α β ε : Type} {f : α → β} {r : Except ε α} {e : ε}
    (h : r.map f = .error e) : r = .error e := by
  cases r with
  | error e' => exact congrArg Except.error (Except.error.inj h)
  | ok a => cases h

theorem parseCommand_unlisted (hline : splitWhitespace line = name :: parts)
    (h : name ∉ commandNames) : parseCommand line = .error (.unknown name) := by
  rw [parseCommand, hline]
  dsimp only
  split
  iterate 23
    · exact absurd (by decide) h
  · rfl

theorem parseCommand_listed (hline : splitWhitespace line = name :: parts) (h : name ∈ commandNames)
    (herror : parseCommand line = .error e) : ∃ text, e = .usage text := by
  rw [parseCommand, hline] at herror
  dsimp only at herror
  split at herror
  iterate 18
    · exact ⟨_, parseNoArgs_error herror⟩
  · exact ⟨_, parseRemainder_error (error_of_map_error herror)⟩
  · exact ⟨_, parseRemainder_error (error_of_map_error herror)⟩
  · exact parseAccount_error herror
  · exact ⟨_, parseSearch_error herror⟩
  · exact ⟨_, parseTheme_error herror⟩
  · simp_all [commandNames]

/-- A line is refused as empty exactly if it has no word, and as unknown exactly if its first
word is not in the table of the names. -/
theorem refusal_tells_why (line : String) :
    (parseCommand line = .error .empty ↔ splitWhitespace line = []) ∧
      ∀ name, parseCommand line = .error (.unknown name) ↔
        (splitWhitespace line).head? = some name ∧ name ∉ commandNames := by
  cases hline : splitWhitespace line with
  | nil =>
    have hempty : parseCommand line = .error .empty := by rw [parseCommand, hline]
    simp [hempty]
  | cons first parts =>
    by_cases hlisted : first ∈ commandNames
    · have hnot : ∀ e, (∀ text, e ≠ .usage text) → parseCommand line ≠ .error e := by
        intro e husage he
        obtain ⟨text, rfl⟩ := parseCommand_listed hline hlisted he
        exact husage text rfl
      refine ⟨iff_of_false (hnot _ nofun) (List.cons_ne_nil _ _), fun name => ?_⟩
      refine iff_of_false (hnot _ nofun) ?_
      rintro ⟨hfirst, hunlisted⟩
      cases hfirst
      exact hunlisted hlisted
    · rw [parseCommand_unlisted hline hlisted]
      refine ⟨iff_of_false nofun (List.cons_ne_nil _ _), fun name => ?_⟩
      rw [Except.error.injEq, CommandError.unknown.injEq, List.head?_cons, Option.some.injEq]
      refine ⟨?_, And.left⟩
      rintro rfl
      exact ⟨rfl, hlisted⟩

end Names

/-! ## The completion -/

structure CommandCompletion where
  text : String
  matches_ : List String
  unique : Bool
  deriving DecidableEq

/-- The names that begin with what was typed. -/
def matchingNames (input : String) : List String :=
  commandNames.filter fun name => input.toList <+: name.toList

def completeCommand (input : String) : Option CommandCompletion :=
  if input.isEmpty then none
  else if input.toList.any isWhitespace then none
  else
    match matchingNames input with
    | [] => none
    | [only] => some ⟨only, [only], true⟩
    | many => some ⟨String.ofList (longestCommonPrefix (many.map String.toList)), many, false⟩

/-! ## Typing -/

def maxCommandChars : Nat := 128

/-- `push_command_char` on the line; `none` is a character that is not taken. -/
def pushCommandChar (line : String) (ch : Char) : Option String :=
  if isControl ch || maxCommandChars ≤ line.length then none else some (line.push ch)

/-- The characters of a completion, up to the first that is not taken. -/
def pushCommandChars (line : String) : List Char → String
  | [] => line
  | ch :: rest =>
    match pushCommandChar line ch with
    | none => line
    | some line => pushCommandChars line rest

/-- `handle_command_tab` on the line. -/
def handleCommandTab (line : String) : String :=
  match completeCommand line with
  | none => line
  | some completion =>
    if completion.unique then
      let completed := pushCommandChars "" completion.text.toList
      (pushCommandChar completed ' ').getD completed
    else if line.utf8ByteSize < completion.text.utf8ByteSize then completion.text
    else line

/-- The keys of `handle_command_key` that stay in the line. -/
inductive CommandKey where
  | backspace
  | tab
  | char (ch : Char)

def commandKey (line : String) : CommandKey → String
  | .backspace => String.ofList line.toList.dropLast
  | .tab => handleCommandTab line
  | .char ch => (pushCommandChar line ch).getD line

section Typing

variable {line name : String} {p : List Char}

theorem mem_matchingNames : name ∈ matchingNames line ↔
    name ∈ commandNames ∧ line.toList <+: name.toList := by
  simp [matchingNames]

/-- With a blank in it, a line begins no name. -/
theorem no_blank (hmatch : name ∈ matchingNames line) : line.toList.any isWhitespace = false := by
  rw [mem_matchingNames] at hmatch
  rw [List.any_eq_false]
  intro ch hch
  rw [(unbroken_name hmatch.1).2 ch (hmatch.2.subset hch)]
  exact Bool.false_ne_true

theorem eq_of_utf8ByteSize_le {text : String} (hpre : line.toList <+: text.toList)
    (h : text.utf8ByteSize ≤ line.utf8ByteSize) : text = line := by
  obtain ⟨rest, hrest⟩ := hpre
  have htext : text = line ++ String.ofList rest := by
    rw [← String.toList_inj, String.toList_append, String.toList_ofList, hrest]
  rw [htext, String.utf8ByteSize_append] at h
  have hzero : (String.ofList rest).utf8ByteSize = 0 := by omega
  rw [htext, String.utf8ByteSize_eq_zero_iff.mp hzero, String.append_empty]

theorem handleCommandTab_none (h : matchingNames line = []) : handleCommandTab line = line := by
  have hnone : completeCommand line = none := by
    simp only [completeCommand, h]
    split_ifs <;> rfl
  rw [handleCommandTab, hnone]

theorem handleCommandTab_one (hline : line ≠ "") (h : matchingNames line = [name]) :
    handleCommandTab line = name ++ " " := by
  have hmem : name ∈ matchingNames line := by rw [h]; exact List.mem_singleton_self name
  have hfits : ∀ name ∈ commandNames, (pushCommandChar (pushCommandChars "" name.toList) ' ').getD
      (pushCommandChars "" name.toList) = name ++ " " := by decide
  have hsome : completeCommand line = some ⟨name, [name], true⟩ := by
    simp [completeCommand, h, no_blank hmem, hline]
  rw [handleCommandTab, hsome]
  exact hfits name (mem_matchingNames.mp hmem).1

theorem handleCommandTab_many {first second : String} {others : List String} (hline : line ≠ "")
    (h : matchingNames line = first :: second :: others) :
    handleCommandTab line =
      String.ofList (longestCommonPrefix ((matchingNames line).map String.toList)) := by
  have hmem : first ∈ matchingNames line := by rw [h]; exact List.mem_cons_self
  have hsome : completeCommand line = some
      ⟨String.ofList (longestCommonPrefix ((matchingNames line).map String.toList)),
        matchingNames line, false⟩ := by
    simp [completeCommand, h, no_blank hmem, hline]
  have hpre : line.toList <+: longestCommonPrefix ((matchingNames line).map String.toList) := by
    rw [prefix_longestCommonPrefix_iff (by simp [h])]
    intro word hword
    obtain ⟨name, hname, rfl⟩ := List.mem_map.mp hword
    exact (mem_matchingNames.mp hname).2
  rw [handleCommandTab, hsome]
  dsimp only
  rw [if_neg Bool.false_ne_true]
  by_cases hlonger : line.utf8ByteSize <
      (String.ofList (longestCommonPrefix ((matchingNames line).map String.toList))).utf8ByteSize
  · exact if_pos hlonger
  · rw [if_neg hlonger]
    refine (eq_of_utf8ByteSize_le ?_ (Nat.not_lt.mp hlonger)).symm
    rwa [String.toList_ofList]

/-- Two names have no more in common when a blank is put behind each. -/
theorem prefix_blank_iff {first second : String} {others : List String}
    (h : matchingNames line = first :: second :: others) :
    (∀ name ∈ matchingNames line, p <+: name.toList ++ [' ']) ↔
      ∀ name ∈ matchingNames line, p <+: name.toList := by
  constructor
  · intro hall name hname
    rcases List.prefix_concat_iff.mp (hall name hname) with hwhole | hpre
    · have hnodup : (matchingNames line).Nodup := List.Nodup.filter _ (by decide)
      obtain ⟨other, hother, hne⟩ : ∃ other ∈ matchingNames line, other ≠ name := by
        by_cases hfirst : first = name
        · refine ⟨second, by simp [h], ?_⟩
          rintro rfl
          rw [h, hfirst] at hnodup
          simp at hnodup
        · exact ⟨first, by simp [h], hfirst⟩
      rcases List.prefix_concat_iff.mp (hall other hother) with hsame | hblank
      · rw [hwhole] at hsame
        exact absurd (String.toList_inj.mp (List.append_cancel_right hsame)).symm hne
      · have hin : ' ' ∈ other.toList := hblank.subset (by simp [hwhole])
        have hblack := (unbroken_name (mem_matchingNames.mp hother).1).2 ' ' hin
        exact absurd hblack (by decide)
    · exact hpre
  · exact fun hall name hname => (hall name hname).trans (List.prefix_append _ _)

theorem handleCommandTab_prefix_iff (hmatch : matchingNames line ≠ []) :
    p <+: (handleCommandTab line).toList ↔
      ∀ name ∈ matchingNames line, p <+: name.toList ++ [' '] := by
  by_cases hline : line = ""
  · subst hline
    have htab : handleCommandTab "" = "" := rfl
    have hall : matchingNames "" = commandNames := by decide
    have hfirst : "account" ∈ commandNames := by decide
    have hdeny : "deny" ∈ commandNames := by decide
    rw [htab, hall, String.toList_empty, List.prefix_nil]
    refine ⟨fun h name _ => h ▸ List.nil_prefix, fun h => ?_⟩
    cases p with
    | nil => rfl
    | cons ch p =>
      obtain ⟨hch, -⟩ := List.cons_prefix_cons.mp (h _ hfirst)
      obtain ⟨hch', -⟩ := List.cons_prefix_cons.mp (h _ hdeny)
      rw [hch] at hch'
      cases hch'
  · rcases hnames : matchingNames line with _ | ⟨first, _ | ⟨second, others⟩⟩
    · exact absurd hnames hmatch
    · rw [handleCommandTab_one hline hnames, String.toList_append]
      simp
    · rw [← hnames, prefix_blank_iff hnames, handleCommandTab_many hline hnames,
        String.toList_ofList, prefix_longestCommonPrefix_iff (by simpa using hmatch)]
      simp

theorem prefix_handleCommandTab (line : String) :
    line.toList <+: (handleCommandTab line).toList := by
  by_cases hmatch : matchingNames line = []
  · rw [handleCommandTab_none hmatch]
  · rw [handleCommandTab_prefix_iff hmatch]
    exact fun name hname => (mem_matchingNames.mp hname).2.trans (List.prefix_append _ _)

/-- Tab leaves the names that are still possible, as long as it does not end the name. -/
theorem matchingNames_handleCommandTab (hmatch : matchingNames line ≠ [])
    (hopen : matchingNames (handleCommandTab line) ≠ []) :
    matchingNames (handleCommandTab line) = matchingNames line := by
  apply List.filter_congr
  intro name hname
  rw [decide_eq_decide]
  refine ⟨(prefix_handleCommandTab line).trans, fun hline => ?_⟩
  have hmem : name ∈ matchingNames line := mem_matchingNames.mpr ⟨hname, hline⟩
  rcases List.prefix_concat_iff.mp
    (handleCommandTab_prefix_iff hmatch |>.mp (List.prefix_refl _) name hmem) with hwhole | hpre
  · obtain ⟨other, hother⟩ := List.exists_mem_of_ne_nil _ hopen
    have hblack := no_blank hother
    rw [hwhole, List.any_append] at hblack
    exact absurd hblack (by simp [isWhitespace])
  · exact hpre

theorem handleCommandTab_twice (line : String) :
    handleCommandTab (handleCommandTab line) = handleCommandTab line := by
  by_cases hmatch : matchingNames line = []
  · rw [handleCommandTab_none hmatch, handleCommandTab_none hmatch]
  · by_cases hopen : matchingNames (handleCommandTab line) = []
    · exact handleCommandTab_none hopen
    · have hsame := matchingNames_handleCommandTab hmatch hopen
      have hback : (handleCommandTab (handleCommandTab line)).toList <+:
          (handleCommandTab line).toList := by
        rw [handleCommandTab_prefix_iff hmatch, ← hsame, ← handleCommandTab_prefix_iff hopen]
      have hforth := prefix_handleCommandTab (handleCommandTab line)
      exact String.toList_inj.mp (hback.eq_of_length_le hforth.length_le)

/-- What a line can be while it is typed. -/
def Typed (line : String) : Prop :=
  line.length ≤ maxCommandChars ∧ ∀ ch ∈ line.toList, isControl ch = false

theorem Typed.of_prefix {text : String} (h : Typed text) (hpre : line.toList <+: text.toList) :
    Typed line := by
  refine ⟨?_, fun ch hch => h.2 ch (hpre.subset hch)⟩
  have hlen := hpre.length_le
  rw [String.length_toList, String.length_toList] at hlen
  exact hlen.trans h.1

theorem Typed.push {ch : Char} {next : String} (h : Typed line)
    (hnext : pushCommandChar line ch = some next) : Typed next := by
  unfold pushCommandChar at hnext
  split at hnext
  · cases hnext
  next htaken =>
    simp only [Bool.or_eq_true, decide_eq_true_eq, not_or, Nat.not_le] at htaken
    cases hnext
    refine ⟨?_, fun c hc => ?_⟩
    · rw [String.length_push]
      exact htaken.2
    · rw [String.toList_push, List.mem_append, List.mem_singleton] at hc
      rcases hc with hline | rfl
      · exact h.2 c hline
      · exact Bool.not_eq_true _ ▸ htaken.1

theorem Typed.tab (h : Typed line) : Typed (handleCommandTab line) := by
  by_cases hmatch : matchingNames line = []
  · rwa [handleCommandTab_none hmatch]
  · obtain ⟨name, hname⟩ := List.exists_mem_of_ne_nil _ hmatch
    have hpre := (handleCommandTab_prefix_iff hmatch).mp (List.prefix_refl _) name hname
    have hall : ∀ name ∈ commandNames, (name ++ " ").length ≤ 12 ∧
        ((name ++ " ").toList.all fun ch => !isControl ch) = true := by decide
    obtain ⟨hlen, hwritten⟩ := hall name (mem_matchingNames.mp hname).1
    have hwhole : Typed (name ++ " ") := by
      refine ⟨hlen.trans (by decide), fun ch hch => ?_⟩
      simpa using List.all_eq_true.mp hwritten ch hch
    exact hwhole.of_prefix (by rwa [String.toList_append])

theorem Typed.key (h : Typed line) (key : CommandKey) : Typed (commandKey line key) := by
  cases key with
  | backspace => exact h.of_prefix (by simp [commandKey, List.dropLast_prefix])
  | tab => exact h.tab
  | char ch =>
    rw [commandKey]
    cases hnext : pushCommandChar line ch with
    | none => exact h
    | some next => exact h.push hnext

theorem typed_keys (h : Typed line) (keys : List CommandKey) : Typed (keys.foldl commandKey line) := by
  induction keys generalizing line with
  | nil => exact h
  | cons key keys ih => exact ih (h.key key)

/-- After any keys the line is short and free of control characters. Tab writes what all names
that are still possible have in common, with a blank behind each, and no less; a second Tab
changes nothing. -/
theorem tab_writes_common (keys : List CommandKey) :
    let line := keys.foldl commandKey ""
    Typed line ∧ handleCommandTab (handleCommandTab line) = handleCommandTab line ∧
      if matchingNames line = [] then handleCommandTab line = line
      else ∀ p, p <+: (handleCommandTab line).toList ↔
        ∀ name ∈ matchingNames line, p <+: name.toList ++ [' '] := by
  intro line
  have hempty : Typed "" := ⟨Nat.zero_le _, by simp⟩
  refine ⟨typed_keys hempty keys, handleCommandTab_twice line, ?_⟩
  split_ifs with hmatch
  · exact handleCommandTab_none hmatch
  · exact fun p => handleCommandTab_prefix_iff hmatch

example : handleCommandTab "re" = "reply" ∧ handleCommandTab "sy" = "sync " := by decide

end Typing

end Postblox.Tui
