import PadlockCloud.Model.Server

/-!
# The whitelist

`whitelist.go`: the emails that may ask for a token, one in each line of a file.
-/

namespace PadlockCloud

/-- `bufio.MaxScanTokenSize` -/
def maxScanTokenSize : Nat := 64 * 1024

/-- The end of a line as `bufio.ScanLines` drops it: one carriage return at most. -/
def dropCR (line : GoString) : GoString :=
  if line.getLast? = some 0x0D then line.dropLast else line

/-- The tokens of a `bufio.Scanner`, and `none` for its error: a line that does not fit into
the buffer together with a line feed. Nothing comes after the last line feed. -/
def scanLines (content : GoString) : Option (List GoString) :=
  let lines := content.splitOn 0x0A
  let lines := if lines.getLast? = some [] then lines.dropLast else lines
  if lines.all fun line => line.length < maxScanTokenSize then some (lines.map dropCR) else none

/-- `NewWhitelist`, from the content of the file if there is one and it can be read. -/
def newWhitelist (content : Option GoString) : Option (List GoString) := content.bind scanLines

/-- What `Server.Init` does with the path in the configuration; `none` is the error. -/
def Server.initWhitelist (files : GoString → Option GoString) (path : GoString) :
    Option (Option (List GoString)) :=
  if path = [] then some none else (newWhitelist (files path)).map some

theorem dropCR_eq {line : GoString} (hEnd : line.getLast? ≠ some 0x0D) : dropCR line = line :=
  if_neg hEnd

/-- A file with one email in each line is read as the list of them. -/
theorem scanLines_print {emails : List GoString} (hEmails : ∀ e ∈ emails, (0x0A : UInt8) ∉ e ∧
      e.getLast? ≠ some 0x0D ∧ e.length < maxScanTokenSize) :
    scanLines (emails.flatMap fun e => e ++ [0x0A]) = some emails := by
  have hSplit : (emails.flatMap fun e => e ++ [0x0A]).splitOn 0x0A = emails ++ [[]] := by
    induction emails with
    | nil => rfl
    | cons e emails ih =>
      have hHead := (hEmails e List.mem_cons_self).1
      rw [List.flatMap_cons, List.append_assoc, List.singleton_append,
        List.splitOn_append_cons_self_of_not_mem hHead,
        ih fun e he => hEmails e (List.mem_cons_of_mem _ he), List.cons_append]
  have hLines : (emails.map dropCR) = emails := by
    conv_rhs => rw [← List.map_id emails]
    exact List.map_congr_left fun e he => dropCR_eq (hEmails e he).2.1
  have hFit : (emails.all fun line => line.length < maxScanTokenSize) = true :=
    List.all_eq_true.mpr fun e he => decide_eq_true (hEmails e he).2.2
  unfold scanLines
  dsimp only
  rw [hSplit, List.getLast?_concat, if_pos rfl, List.dropLast_concat, if_pos hFit, hLines]

end PadlockCloud
