import Mathlib.Data.List.TakeWhile
import ChaiBeast.Data.OrderedMap
import ChaiBeast.Strings

namespace ChaiBeast.CommandLine

open Data

/-! command_line_parser.hpp, and what the three servers make of their arguments. -/

/-- The `std::map`, in an order of its own: every search in it is by the key. -/
abbrev Comline := List (CppString × CppString)

/-- The loop, at argument `i` and for what is left of `argc`. -/
def parseFrom (argv : List CppString) (i : Nat) (comline : Comline) : Nat → Except Fault Comline
  | argc + 3 => do
      let key ← subscript argv i
      let value ← subscript argv (i + 1)
      parseFrom argv (i + 2) (OrderedMap.insert key value comline) (argc + 1)
  | _ => return comline

def parseCommandline (argc : Nat) (argv : List CppString) : Except Fault Comline :=
  parseFrom argv 1 [] argc

def extact (commLine : Comline) (a : CppString) : CppString :=
  match commLine.find? (·.1 == a) with
  | some iter => iter.2
  | none => []

/-- The tuple has as many elements as there are flags. -/
def getArgs (commLine : Comline) (args : Vector CppString n) : Vector CppString n :=
  args.map (extact commLine)

def isSpace (c : Char) : Bool :=
  c == ' ' || c == '\t' || c == '\n' || c == '\x0b' || c == '\x0c' || c == '\r'

def digits (text : CppString) : Int :=
  Nat.ofDigitChars 10 (text.takeWhile Char.isDigit) 0

def signedDigits : CppString → Int
  | '-' :: rest => - digits rest
  | '+' :: rest => digits rest
  | rest => digits rest

/-- `std::atoi`, which is undefined outside the range of an `int`. -/
def atoi (text : CppString) : Option Int :=
  let value := signedDigits (text.dropWhile isSpace)
  if -2147483648 ≤ value ∧ value < 2147483648 then some value else none

/-- The port of `tcp::endpoint(tcp::v4(), std::atoi(port.data()))`, which takes
an `unsigned short`. -/
def endpointPort (port : CppString) : Option Nat :=
  (atoi (cString port)).map fun value => (value % 65536).toNat

/-- `main` of reverseproxy.cpp up to the server: its port and the file of its
configuration, or nothing where it prints how to be called. -/
def reverseproxy (argv : List CppString) : Except Fault (Option (CppString × CppString)) := do
  let comline ← parseCommandline argv.length argv
  let values := getArgs comline #v["-p".toList, "-c".toList]
  let (p, config) := (values[0], values[1])
  if p.isEmpty then return none
  let config := if config.isEmpty then "config.json".toList else config
  return some (p, config)

/-- The same of dump_server.cpp: its port and the root of its files. -/
def dumpServer (argv : List CppString) : Except Fault (Option (CppString × CppString)) := do
  let comline ← parseCommandline argv.length argv
  let values := getArgs comline #v["-p".toList, "-r".toList]
  let (port, root) := (values[0], values[1])
  if port.isEmpty then return none
  return some (port, root)

/-- The same of fileserver.cpp: its port. -/
def fileserver (argv : List CppString) : Except Fault (Option CppString) := do
  let comline ← parseCommandline argv.length argv
  let port := (getArgs comline #v["-p".toList])[0]
  if port.isEmpty then return none
  return some port

/-! ## What the arguments mean -/

/-- A flag with its value, one after the other.  A flag without one is dropped. -/
def pairs : List α → List (α × α)
  | flag :: value :: rest => (flag, value) :: pairs rest
  | _ => []

/-- The value that is given last. -/
def lastGiven (args : List CppString) (flag : CppString) : CppString :=
  ((pairs args).reverse.find? (·.1 == flag)).elim [] Prod.snd

theorem parseFrom_eq (front args : List CppString) (comline : Comline) :
    parseFrom (front ++ args) front.length comline (args.length + 1) =
      .ok ((pairs args).foldl (fun comline given => OrderedMap.insert given.1 given.2 comline)
        comline) := by
  induction args using pairs.induct generalizing front comline with
  | case1 flag value rest ih =>
      have key : subscript (front ++ flag :: value :: rest) front.length = .ok flag := by
        simp [subscript]
      have next : subscript (front ++ flag :: value :: rest) (front.length + 1) = .ok value := by
        simp [subscript]
      have moved := ih (front ++ [flag, value]) (OrderedMap.insert flag value comline)
      simpa [parseFrom, key, next, pairs] using moved
  | case2 args short =>
      match args with
      | [] | [_] => rfl
      | flag :: value :: rest => exact absurd rfl (short flag value rest)

theorem find?_foldl_insert (given : List (CppString × CppString)) (comline : Comline)
    (flag : CppString) :
    (given.foldl (fun comline given => OrderedMap.insert given.1 given.2 comline) comline).find?
        (·.1 == flag) =
      (given.reverse.find? (·.1 == flag)).or (comline.find? (·.1 == flag)) := by
  induction given generalizing comline with
  | nil => rfl
  | cons first rest ih =>
      rw [List.foldl_cons, ih, OrderedMap.find?_insert_key, List.reverse_cons, List.find?_append,
        List.find?_singleton, Option.or_assoc]
      obtain ⟨name, value⟩ := first
      by_cases same : name = flag
      · subst same
        simp
      · simp [same]

/-- No element behind the arguments is read, and every flag has the value that
was given last. -/
theorem parseCommandline_eq (program : CppString) (args : List CppString) :
    ∃ comline, parseCommandline (program :: args).length (program :: args) = .ok comline ∧
      ∀ flag, extact comline flag = lastGiven args flag := by
  refine ⟨_, parseFrom_eq [program] args [], fun flag => ?_⟩
  rw [extact, find?_foldl_insert, lastGiven, List.find?_nil, Option.or_none]
  cases (pairs args).reverse.find? (·.1 == flag) <;> rfl

theorem isSpace_of_isDigit {c : Char} (digit : c.isDigit = true) : isSpace c = false := by
  rw [Bool.eq_false_iff]
  intro space
  simp only [isSpace, Bool.or_eq_true, beq_iff_eq] at space
  rcases space with ((((rfl | rfl) | rfl) | rfl) | rfl) | rfl <;> exact absurd digit (by decide)

theorem signedDigits_of_digits {text : CppString} (allDigits : ∀ c ∈ text, c.isDigit = true) :
    signedDigits (text.dropWhile isSpace) = Nat.ofDigitChars 10 text 0 := by
  have unspaced : text.dropWhile isSpace = text := by
    refine List.dropWhile_eq_self_iff.mpr fun nonempty => ?_
    simp [isSpace_of_isDigit (allDigits _ (List.getElem_mem nonempty))]
  have whole : digits text = Nat.ofDigitChars 10 text 0 := by
    rw [digits, List.takeWhile_eq_self_iff.mpr allDigits]
  rw [unspaced, ← whole]
  unfold signedDigits
  split
  · exact absurd (allDigits '-' (by simp)) (by decide)
  · exact absurd (allDigits '+' (by simp)) (by decide)
  · rfl

theorem endpointPort_decimal {n : Nat} (small : n < 2147483648) :
    endpointPort (Nat.toDigits 10 n) = some (n % 65536) := by
  have allDigits : ∀ c ∈ Nat.toDigits 10 n, c.isDigit = true := fun c member =>
    Nat.isDigit_of_mem_toDigits (by decide) (by decide) member
  have noNul : '\x00' ∉ Nat.toDigits 10 n := fun member => absurd (allDigits _ member) (by decide)
  have value : signedDigits ((Nat.toDigits 10 n).dropWhile isSpace) = n := by
    rw [signedDigits_of_digits allDigits, Nat.ofDigitChars_ten_toDigits]
  have fits : (-2147483648 : Int) ≤ n ∧ (n : Int) < 2147483648 := by omega
  rw [endpointPort, cString_of_noNul noNul, atoi, value, if_pos fits, Option.map_some]
  rfl

/-- However the arguments are ordered, each server is started exactly if a port
was given, on the port given last and with the configuration or root given last,
where the proxy falls back to config.json.  And a decimal port is the one it
listens on, up to the size of a port number. -/
theorem servers_started (program : CppString) (args : List CppString) :
    let p := lastGiven args "-p".toList
    let config := lastGiven args "-c".toList
    reverseproxy (program :: args) =
        .ok (if p = [] then none else some (p, if config = [] then "config.json".toList else config)) ∧
      dumpServer (program :: args) =
        .ok (if p = [] then none else some (p, lastGiven args "-r".toList)) ∧
      fileserver (program :: args) = .ok (if p = [] then none else some p) ∧
      ∀ n, p = Nat.toDigits 10 n → n < 2147483648 → endpointPort p = some (n % 65536) := by
  intro p config
  obtain ⟨comline, parsed, given⟩ := parseCommandline_eq program args
  have values : ∀ {n i} (flags : Vector CppString n) (bound : i < n),
      (getArgs comline flags)[i] = lastGiven args flags[i] := by
    intro n i flags bound
    rw [← given, getArgs, Vector.getElem_map]
  refine ⟨?_, ?_, ?_, fun n decimal small => by rw [decimal, endpointPort_decimal small]⟩
  · simp only [reverseproxy, parsed, ok_bind, values, List.isEmpty_iff]
    change (if p = [] then _ else _) = _
    split <;> rfl
  · simp only [dumpServer, parsed, ok_bind, values, List.isEmpty_iff]
    change (if p = [] then _ else _) = _
    split <;> rfl
  · simp only [fileserver, parsed, ok_bind, values, List.isEmpty_iff]
    change (if p = [] then _ else _) = _
    split <;> rfl

end ChaiBeast.CommandLine
