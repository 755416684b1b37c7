import LabProbe.Lib.Rows
import LabProbe.Hub.AddressText
import LabProbe.Relay.DdnsAddress

/-!
# The dump of the WireGuard interfaces

`parse_wg_dump` reads what `wg show all dump` prints: a line of five columns for
an interface, a line of nine for a peer. It goes over the lines twice, first for
the interfaces and then to count the peers of each.
-/

namespace LabProbe.WireGuard

open Py Hub Relay

-- ---------------------------------------------------------------------------
-- Parsing
-- ---------------------------------------------------------------------------

structure WireGuardInterfaceStatus where
  name : String
  publicKey : String
  listenPort : Option Nat
  peerCount : UInt32
  running : Bool
  addresses : List String
  rxBytes : Nat
  txBytes : Nat
  latestHandshakeAt : Option Nat
  deriving DecidableEq

def dropPlus : List Char → List Char
  | '+' :: cs => cs
  | cs => cs

def parseUnsigned (bits : Nat) (s : String) : Option Nat :=
  let digits := dropPlus s.toList
  if !digits.isEmpty && digits.all Char.isDigit && decimalValue digits < 2 ^ bits then
    some (decimalValue digits)
  else none

def columns (line : String) : List String := (splitOn '\t' line.toList).map String.ofList

def saturatingAdd (a b : Nat) : Nat := min (a + b) (2 ^ 64 - 1)

def newStatus (name publicKey listenPort : String) : WireGuardInterfaceStatus where
  name := name
  publicKey := publicKey
  listenPort := parseUnsigned 16 listenPort
  peerCount := 0
  running := false
  addresses := []
  rxBytes := 0
  txBytes := 0
  latestHandshakeAt := none

def addInterface (interfaces : List WireGuardInterfaceStatus) (line : String) :
    List WireGuardInterfaceStatus :=
  if trim line = "" then interfaces
  else match columns line with
    | [name, privateKey, publicKey, listenPort, _] =>
      if name = "" ∨ privateKey = "" then interfaces
      else if interfaces.any (·.name == name) then interfaces
      else interfaces ++ [newStatus name publicKey listenPort]
    | _ => interfaces

def addCounters (handshake rx tx : Nat) (item : WireGuardInterfaceStatus) :
    WireGuardInterfaceStatus :=
  { item with
    peerCount := item.peerCount + 1
    rxBytes := saturatingAdd item.rxBytes rx
    txBytes := saturatingAdd item.txBytes tx
    latestHandshakeAt := if 0 < handshake then
        some ((item.latestHandshakeAt.map (max · handshake)).getD handshake)
      else item.latestHandshakeAt }

def addPeer (interfaces : List WireGuardInterfaceStatus) (line : String) :
    List WireGuardInterfaceStatus :=
  if trim line = "" then interfaces
  else match columns line with
    | interface :: _ :: _ :: _ :: _ :: handshake :: rx :: tx :: _ :: _ =>
      Rows.updateFirst (·.name == interface)
        (addCounters ((parseUnsigned 64 handshake).getD 0) ((parseUnsigned 64 rx).getD 0)
          ((parseUnsigned 64 tx).getD 0)) interfaces
    | _ => interfaces

def parseWgDump (raw : String) : List WireGuardInterfaceStatus :=
  (lines raw).foldl addPeer ((lines raw).foldl addInterface [])

-- ---------------------------------------------------------------------------
-- Dumps
-- ---------------------------------------------------------------------------

abbrev Column := { s : String // '\t' ∉ s.toList ∧ '\n' ∉ s.toList }

structure DumpInterface where
  name : Column
  privateKey : Column
  publicKey : Column
  listenPort : Column
  fwmark : Column

structure DumpPeer where
  interface : Column
  publicKey : Column
  presharedKey : Column
  endpoint : Column
  allowedIps : Column
  latestHandshake : UInt64
  rx : UInt64
  tx : UInt64
  keepalive : Column

def tabbed (cells : List String) : String := String.ofList (joinWith '\t' (cells.map String.toList))

def DumpInterface.cells (i : DumpInterface) : List String :=
  [i.name.1, i.privateKey.1, i.publicKey.1, i.listenPort.1, i.fwmark.1]

def DumpPeer.cells (p : DumpPeer) : List String :=
  [p.interface.1, p.publicKey.1, p.presharedKey.1, p.endpoint.1, p.allowedIps.1,
    toString p.latestHandshake.toNat, toString p.rx.toNat, toString p.tx.toNat, p.keepalive.1]

/-- A line that is blank, or has as many columns as neither kind has. -/
abbrev OtherLine := { s : String //
  '\n' ∉ s.toList ∧ (trim s = "" ∨ (columns s).length < 5 ∨
    (5 < (columns s).length ∧ (columns s).length < 9)) }

inductive DumpLine where
  | interface (i : DumpInterface)
  | peer (p : DumpPeer) (trailingTab : Bool)
  | other (line : OtherLine)

def DumpLine.text : DumpLine → String
  | .interface i => tabbed i.cells
  | .peer p trailingTab => tabbed (p.cells ++ if trailingTab then [""] else [])
  | .other line => line.1

abbrev Dump := List DumpLine

/-- The interface with the counts of these peers. -/
def DumpInterface.total (i : DumpInterface) (peers : List DumpPeer) : WireGuardInterfaceStatus :=
  { newStatus i.name.1 i.publicKey.1 i.listenPort.1 with
    peerCount := UInt32.ofNat peers.length
    rxBytes := min (peers.map (·.rx.toNat)).sum (2 ^ 64 - 1)
    txBytes := min (peers.map (·.tx.toNat)).sum (2 ^ 64 - 1)
    latestHandshakeAt := ((peers.map (·.latestHandshake.toNat)).filter (0 < ·)).max? }

namespace Dump

/-- The dump with or without a line feed behind the last line. -/
def text (dump : Dump) (ended : Bool) : String :=
  String.ofList (joinWith '\n' (dump.map (·.text.toList)) ++ if ended then ['\n'] else [])

def interfaces (dump : Dump) : List DumpInterface :=
  dump.filterMap fun | .interface i => some i | _ => none

def peers (dump : Dump) : List DumpPeer :=
  dump.filterMap fun | .peer p _ => some p | _ => none

def peersOf (dump : Dump) (name : String) : List DumpPeer :=
  dump.peers.filter fun p => p.interface.1 = name

def secrets (dump : Dump) : List String :=
  dump.interfaces.map (·.privateKey.1) ++ dump.peers.map (·.presharedKey.1)

/-- The columns of the interfaces except for the private keys. -/
def publicColumns (dump : Dump) : List String :=
  dump.interfaces.flatMap fun i => [i.name.1, i.publicKey.1, i.listenPort.1, i.fwmark.1]

end Dump

/-- The texts of the status. -/
def WireGuardInterfaceStatus.texts (item : WireGuardInterfaceStatus) : List String :=
  item.name :: item.publicKey :: item.addresses

/-- The line of the interface has a private key, and is not white space alone. -/
def DumpInterface.Listed (i : DumpInterface) : Prop :=
  i.privateKey.1 ≠ "" ∧ trim (tabbed i.cells) ≠ ""

instance (i : DumpInterface) : Decidable i.Listed := inferInstanceAs (Decidable (_ ∧ _))

-- ---------------------------------------------------------------------------
-- Lines
-- ---------------------------------------------------------------------------

theorem trim_eq_empty {s : String} : trim s = "" ↔ ∀ c ∈ s.toList, Relay.isWhitespace c = true := by
  rw [trim, trimMatches, ← String.toList_inj, String.toList_ofList, String.toList_empty,
    List.rdropWhile_eq_nil_iff]
  constructor
  · intro h c hc
    by_contra hspace
    cases hdrop : s.toList.dropWhile Relay.isWhitespace with
    | nil => exact hspace (List.dropWhile_eq_nil_iff.mp hdrop c hc)
    | cons d ds =>
      have hhead : Relay.isWhitespace d = true := h d (by simp [hdrop])
      have hne : s.toList.dropWhile Relay.isWhitespace ≠ [] := by simp [hdrop]
      have hfalse := List.head_dropWhile_not Relay.isWhitespace hne
      simp [hdrop, hhead] at hfalse
  · exact fun h c hc => h c ((List.dropWhile_suffix _).subset hc)

theorem splitOn_concat {sep c : Char} (hc : c ≠ sep) (cs : List Char) :
    ∃ init last, splitOn sep cs = init ++ [last] ∧
      splitOn sep (cs ++ [c]) = init ++ [last ++ [c]] := by
  induction cs with
  | nil => exact ⟨[], [], rfl, by simp [splitOn, hc]⟩
  | cons d cs ih =>
    obtain ⟨init, last, hsplit, hconcat⟩ := ih
    by_cases hd : d = sep
    · exact ⟨[] :: init, last, by simp [splitOn, hd, hsplit], by simp [splitOn, hd, hconcat]⟩
    · cases init with
      | nil =>
        exact ⟨[], d :: last, by simp [splitOn, hd, hsplit], by simp [splitOn, hd, hconcat]⟩
      | cons word words =>
        exact ⟨(d :: word) :: words, last, by simp [splitOn, hd, hsplit],
          by simp [splitOn, hd, hconcat]⟩

theorem columns_stripReturn (cs : List Char) : ∃ init last last',
    columns (String.ofList cs) = init ++ [last] ∧
      columns (String.ofList (stripReturn cs)) = init ++ [last'] := by
  unfold stripReturn
  split
  · rename_i hlast
    obtain ⟨pre, rfl⟩ := List.getLast?_eq_some_iff.mp hlast
    obtain ⟨init, last, hsplit, hconcat⟩ := @splitOn_concat '\t' '\r' (by decide) pre
    refine ⟨init.map String.ofList, String.ofList (last ++ ['\r']), String.ofList last, ?_, ?_⟩
    · simp [columns, hconcat]
    · simp [columns, hsplit]
  · rcases List.eq_nil_or_concat (splitOn '\t' cs) with hnil | ⟨init, last, hsplit⟩
    · exact absurd hnil (splitOn_ne_nil _ _)
    · exact ⟨init.map String.ofList, String.ofList last, String.ofList last,
        by simp [columns, hsplit], by simp [columns, hsplit]⟩

theorem trim_stripReturn (cs : List Char) :
    trim (String.ofList (stripReturn cs)) = "" ↔ trim (String.ofList cs) = "" := by
  simp only [trim_eq_empty, String.toList_ofList]
  unfold stripReturn
  split
  · rename_i hlast
    obtain ⟨pre, rfl⟩ := List.getLast?_eq_some_iff.mp hlast
    have hreturn : Relay.isWhitespace '\r' = true := by decide
    simp only [List.dropLast_concat, List.forall_mem_append, List.forall_mem_singleton, hreturn,
      and_true]
  · rfl

theorem addInterface_stripReturn (interfaces : List WireGuardInterfaceStatus) (cs : List Char) :
    addInterface interfaces (String.ofList (stripReturn cs)) =
      addInterface interfaces (String.ofList cs) := by
  obtain ⟨init, last, last', hcolumns, hstripped⟩ := columns_stripReturn cs
  unfold addInterface
  simp only [trim_stripReturn, hcolumns, hstripped]
  rcases init with _ | ⟨a, _ | ⟨b, _ | ⟨c, _ | ⟨d, _ | ⟨e, init⟩⟩⟩⟩⟩ <;> simp

theorem addPeer_stripReturn (interfaces : List WireGuardInterfaceStatus) (cs : List Char) :
    addPeer interfaces (String.ofList (stripReturn cs)) = addPeer interfaces (String.ofList cs) := by
  obtain ⟨init, last, last', hcolumns, hstripped⟩ := columns_stripReturn cs
  unfold addPeer
  simp only [trim_stripReturn, hcolumns, hstripped]
  rcases init with _ | ⟨a, _ | ⟨b, _ | ⟨c, _ | ⟨d, _ | ⟨e, _ | ⟨f, _ | ⟨g, _ | ⟨h, init⟩⟩⟩⟩⟩⟩⟩⟩
  case cons.cons.cons.cons.cons.cons.cons.cons => cases init <;> simp
  all_goals simp

/-- A pass that looks at a line without its carriage return, and not at an empty
one, goes over the pieces of the text. -/
theorem foldl_lines {α : Type} {f : α → String → α}
    (hreturn : ∀ a cs, f a (String.ofList (stripReturn cs)) = f a (String.ofList cs))
    (hempty : ∀ a, f a "" = a) (text : String) (a : α) :
    (lines text).foldl f a =
      (splitOn '\n' text.toList).foldl (fun a cs => f a (String.ofList cs)) a := by
  unfold lines
  rcases List.eq_nil_or_concat (splitOn '\n' text.toList) with hnil | ⟨init, last, hsplit⟩
  · exact absurd hnil (splitOn_ne_nil _ _)
  · rw [hsplit]
    simp only [List.concat_eq_append, List.dropLast_concat, List.getLast?_concat, Option.getD_some,
      List.map_append, List.foldl_append, List.foldl_map, hreturn]
    cases last with
    | nil => simp [hempty]
    | cons c cs => rfl

-- ---------------------------------------------------------------------------
-- Passes over a dump
-- ---------------------------------------------------------------------------

theorem columns_tabbed {cells : List String} (hne : cells ≠ [])
    (h : ∀ cell ∈ cells, '\t' ∉ cell.toList) : columns (tabbed cells) = cells := by
  rw [columns, tabbed, String.toList_ofList, splitOn_joinWith (by simpa using hne) (by simpa using h)]
  simp

theorem notMem_tabbed {c : Char} (hc : c ≠ '\t') {cells : List String}
    (h : ∀ cell ∈ cells, c ∉ cell.toList) : c ∉ (tabbed cells).toList := by
  rw [tabbed, String.toList_ofList]
  intro hmem
  rcases mem_joinWith hmem with rfl | ⟨part, hpart, hmem⟩
  · exact hc rfl
  · obtain ⟨cell, hcell, rfl⟩ := List.mem_map.mp hpart
    exact h cell hcell hmem

theorem notMem_digits {c : Char} (hc : c.isDigit = false) (n : Nat) : c ∉ (toString n).toList := by
  rw [show (toString n).toList = Nat.toDigits 10 n from Nat.toList_repr]
  exact notMem_toDigits hc n

theorem DumpInterface.mem_cells (i : DumpInterface) :
    ∀ cell ∈ i.cells, '\t' ∉ cell.toList ∧ '\n' ∉ cell.toList := by
  simp only [DumpInterface.cells, List.forall_mem_cons, List.not_mem_nil, false_implies,
    implies_true, and_true]
  exact ⟨i.name.2, i.privateKey.2, i.publicKey.2, i.listenPort.2, i.fwmark.2⟩

theorem DumpPeer.mem_cells (p : DumpPeer) :
    ∀ cell ∈ p.cells, '\t' ∉ cell.toList ∧ '\n' ∉ cell.toList := by
  have hnumber : ∀ n : Nat, '\t' ∉ (toString n).toList ∧ '\n' ∉ (toString n).toList :=
    fun n => ⟨notMem_digits (by decide) n, notMem_digits (by decide) n⟩
  simp only [DumpPeer.cells, List.forall_mem_cons, List.not_mem_nil, false_implies, implies_true,
    and_true]
  exact ⟨p.interface.2, p.publicKey.2, p.presharedKey.2, p.endpoint.2, p.allowedIps.2, hnumber _,
    hnumber _, hnumber _, p.keepalive.2⟩

theorem DumpPeer.mem_cells_tab (p : DumpPeer) (trailingTab : Bool) :
    ∀ cell ∈ p.cells ++ (if trailingTab then [""] else []), '\t' ∉ cell.toList ∧ '\n' ∉ cell.toList := by
  rw [List.forall_mem_append]
  refine ⟨p.mem_cells, ?_⟩
  cases trailingTab <;> simp

theorem DumpLine.text_one_line (line : DumpLine) : '\n' ∉ line.text.toList := by
  cases line with
  | interface i => exact notMem_tabbed (by decide) fun cell hcell => (i.mem_cells cell hcell).2
  | peer p trailingTab =>
    exact notMem_tabbed (by decide) fun cell hcell => (p.mem_cells_tab trailingTab cell hcell).2
  | other line => exact line.2.1

theorem splitOn_text (dump : Dump) (ended : Bool) : ∃ blanks : List (List Char),
    splitOn '\n' (dump.text ended).toList = dump.map (·.text.toList) ++ blanks ∧
      ∀ blank ∈ blanks, blank = [] := by
  rw [Dump.text, String.toList_ofList]
  rcases List.eq_nil_or_concat dump with rfl | ⟨_, _, hdump⟩
  · cases ended
    · exact ⟨[[]], rfl, by simp⟩
    · exact ⟨[[], []], rfl, by simp⟩
  · have hsplit : splitOn '\n' (joinWith '\n' (dump.map (·.text.toList))) =
        dump.map (·.text.toList) := by
      refine splitOn_joinWith (by simp [hdump]) ?_
      simp only [List.forall_mem_map]
      exact fun line _ => line.text_one_line
    cases ended with
    | false => exact ⟨[], by simp [hsplit], by simp⟩
    | true =>
      refine ⟨[[]], ?_, by simp⟩
      rw [if_pos rfl, splitOn_append, hsplit]
      rfl

theorem foldl_blanks {α : Type} {f : α → String → α} (hempty : ∀ a, f a "" = a)
    {blanks : List (List Char)} (hblanks : ∀ blank ∈ blanks, blank = []) (a : α) :
    blanks.foldl (fun a cs => f a (String.ofList cs)) a = a := by
  induction blanks with
  | nil => rfl
  | cons cs blanks ih =>
    obtain ⟨rfl, hrest⟩ := List.forall_mem_cons.mp hblanks
    simp only [List.foldl_cons, String.ofList_nil, hempty, ih hrest]

theorem foldl_text {α : Type} {f : α → String → α}
    (hreturn : ∀ a cs, f a (String.ofList (stripReturn cs)) = f a (String.ofList cs))
    (hempty : ∀ a, f a "" = a) (dump : Dump) (ended : Bool) (a : α) :
    (lines (dump.text ended)).foldl f a = dump.foldl (fun a line => f a line.text) a := by
  obtain ⟨blanks, hsplit, hblanks⟩ := splitOn_text dump ended
  rw [foldl_lines hreturn hempty, hsplit, List.foldl_append, List.foldl_map,
    foldl_blanks hempty hblanks]
  simp

-- ---------------------------------------------------------------------------
-- The interfaces
-- ---------------------------------------------------------------------------

variable {interfaces : List WireGuardInterfaceStatus} {i : DumpInterface} {p : DumpPeer}

theorem total_nil (i : DumpInterface) :
    i.total [] = newStatus i.name.1 i.publicKey.1 i.listenPort.1 := rfl

theorem columns_interface (i : DumpInterface) : columns (tabbed i.cells) = i.cells :=
  columns_tabbed (by simp [DumpInterface.cells]) fun cell hcell => (i.mem_cells cell hcell).1

theorem columns_peer (p : DumpPeer) (trailingTab : Bool) :
    columns (DumpLine.peer p trailingTab).text = p.cells ++ if trailingTab then [""] else [] :=
  columns_tabbed (by simp [DumpPeer.cells]) fun cell hcell => (p.mem_cells_tab trailingTab cell hcell).1

theorem addInterface_interface (hname : i.name.1 ≠ "")
    (hnew : ∀ item ∈ interfaces, item.name ≠ i.name.1) :
    addInterface interfaces (DumpLine.interface i).text =
      if i.Listed then interfaces ++ [i.total []] else interfaces := by
  have hany : interfaces.any (·.name == i.name.1) = false := by simpa using hnew
  unfold addInterface
  rw [DumpLine.text, columns_interface]
  simp only [DumpInterface.Listed, total_nil]
  by_cases hkey : i.privateKey.1 = ""
  · simp [hkey, DumpInterface.cells]
  · simp [hkey, DumpInterface.cells, hname, hany]

theorem addInterface_peer (p : DumpPeer) (trailingTab : Bool) :
    addInterface interfaces (DumpLine.peer p trailingTab).text = interfaces := by
  unfold addInterface
  rw [columns_peer]
  cases trailingTab <;> simp [DumpPeer.cells]

theorem addInterface_other (line : OtherLine) :
    addInterface interfaces (DumpLine.other line).text = interfaces := by
  obtain ⟨text, -, hother⟩ := line
  unfold addInterface
  split
  · rfl
  · rename_i hblank
    split
    · rename_i hcolumns
      have hlength : (columns text).length = 5 := congrArg List.length hcolumns
      have hnot := hother.resolve_left hblank
      omega
    · rfl

theorem foldl_addInterface {dump : Dump} (hne : ∀ i ∈ dump.interfaces, i.name.1 ≠ "")
    (hnew : ∀ i ∈ dump.interfaces, ∀ item ∈ interfaces, item.name ≠ i.name.1)
    (hdistinct : (dump.interfaces.map (·.name.1)).Nodup) :
    dump.foldl (fun interfaces line => addInterface interfaces line.text) interfaces =
      interfaces ++ (dump.interfaces.filter (·.Listed)).map (·.total []) := by
  induction dump generalizing interfaces with
  | nil => simp [Dump.interfaces]
  | cons line dump ih =>
    rw [List.foldl_cons]
    cases line with
    | interface i =>
      have hcons : Dump.interfaces (.interface i :: dump) = i :: Dump.interfaces dump := rfl
      rw [hcons] at hne hnew hdistinct ⊢
      obtain ⟨hi, hne⟩ := List.forall_mem_cons.mp hne
      obtain ⟨hinew, hnew⟩ := List.forall_mem_cons.mp hnew
      obtain ⟨hifresh, hdistinct⟩ := List.nodup_cons.mp hdistinct
      rw [addInterface_interface hi hinew]
      by_cases hlisted : i.Listed
      · rw [if_pos hlisted, ih hne _ hdistinct]
        · simp [hlisted]
        · intro j hj item hitem
          rcases List.mem_append.mp hitem with hitem | hitem
          · exact hnew j hj item hitem
          · obtain rfl := List.mem_singleton.mp hitem
            exact fun hname => hifresh (List.mem_map.mpr ⟨j, hj, hname.symm⟩)
      · rw [if_neg hlisted, ih hne hnew hdistinct]
        simp [hlisted]
    | peer p trailingTab =>
      rw [addInterface_peer]
      exact ih hne hnew hdistinct
    | other line =>
      rw [addInterface_other]
      exact ih hne hnew hdistinct

-- ---------------------------------------------------------------------------
-- The peers
-- ---------------------------------------------------------------------------

theorem parseUnsigned_toString {bits n : Nat} (h : n < 2 ^ bits) :
    parseUnsigned bits (toString n) = some n := by
  have hdigits : (toString n).toList = Nat.toDigits 10 n := Nat.toList_repr
  have hall : ∀ c ∈ Nat.toDigits 10 n, c.isDigit = true := fun c hc => isDigit_toDigits c hc
  have hvalue : decimalValue (Nat.toDigits 10 n) = n := by
    have hfold : decimalValue (Nat.toDigits 10 n) = Nat.ofDigitChars 10 (Nat.toDigits 10 n) 0 := by
      simp only [decimalValue, Nat.ofDigitChars_eq_foldl, Nat.mul_comm]
      rfl
    rw [hfold, Nat.ofDigitChars_ten_toDigits]
  unfold parseUnsigned
  rw [hdigits]
  cases hcs : Nat.toDigits 10 n with
  | nil => exact absurd hcs Nat.toDigits_ne_nil
  | cons c cs =>
    rw [hcs] at hall hvalue
    have hplus : c ≠ '+' := by
      rintro rfl
      exact absurd (hall '+' List.mem_cons_self) (by decide)
    have hdrop : dropPlus (c :: cs) = c :: cs := by simp [dropPlus, hplus]
    have hdigits : (c :: cs).all Char.isDigit = true := List.all_eq_true.mpr hall
    simp only [hdrop, hdigits, hvalue, h, List.isEmpty_cons, Bool.not_false, Bool.and_self,
      decide_true, if_true]

theorem max?_concat (l : List Nat) (n : Nat) :
    (l ++ [n]).max? = some ((l.max?.map (max · n)).getD n) := by
  cases l with
  | nil => rfl
  | cons a l => simp only [List.cons_append, List.max?_cons', List.foldl_concat, Option.map_some,
      Option.getD_some]

theorem saturatingAdd_min (a b : Nat) :
    saturatingAdd (min a (2 ^ 64 - 1)) b = min (a + b) (2 ^ 64 - 1) := by
  unfold saturatingAdd
  omega

theorem addCounters_total (i : DumpInterface) (peers : List DumpPeer) (p : DumpPeer) :
    addCounters p.latestHandshake.toNat p.rx.toNat p.tx.toNat (i.total peers) =
      i.total (peers ++ [p]) := by
  have hcount : UInt32.ofNat peers.length + 1 = UInt32.ofNat (peers.length + 1) := by
    simp
  simp only [addCounters, DumpInterface.total, newStatus, hcount, saturatingAdd_min, List.map_append,
    List.map_singleton, List.sum_append, List.sum_singleton, List.length_append,
    List.length_singleton, List.filter_append]
  by_cases hhandshake : 0 < p.latestHandshake.toNat
  · simp [hhandshake, max?_concat]
  · simp [hhandshake]

theorem addPeer_interface (i : DumpInterface) :
    addPeer interfaces (DumpLine.interface i).text = interfaces := by
  unfold addPeer
  rw [DumpLine.text, columns_interface]
  split <;> rfl

theorem addPeer_other (line : OtherLine) :
    addPeer interfaces (DumpLine.other line).text = interfaces := by
  obtain ⟨text, -, hother⟩ := line
  unfold addPeer
  split
  · rfl
  · rename_i hblank
    split
    · rename_i hcolumns
      have hlength := congrArg List.length hcolumns
      simp only [DumpLine.text, List.length_cons] at hlength
      have hnot := hother.resolve_left hblank
      omega
    · rfl

theorem mem_tabbed {c : Char} {cell : String} {cells : List String} (hcell : cell ∈ cells)
    (hc : c ∈ cell.toList) : c ∈ (tabbed cells).toList := by
  rw [tabbed, String.toList_ofList]
  cases cells with
  | nil => cases hcell
  | cons first cells =>
    rw [List.map_cons, joinWith_cons, List.mem_append, List.mem_flatMap]
    rcases List.mem_cons.mp hcell with rfl | hcell
    · exact .inl hc
    · exact .inr ⟨cell.toList, List.mem_map_of_mem hcell, List.mem_cons_of_mem _ hc⟩

theorem trim_peer (p : DumpPeer) (trailingTab : Bool) :
    trim (DumpLine.peer p trailingTab).text ≠ "" := by
  obtain ⟨c, cs, hcs⟩ := List.exists_cons_of_ne_nil (Nat.toDigits_ne_nil (b := 10) (n := p.rx.toNat))
  have hmem : c ∈ (toString p.rx.toNat).toList := by
    rw [show (toString p.rx.toNat).toList = Nat.toDigits 10 p.rx.toNat from Nat.toList_repr, hcs]
    exact List.mem_cons_self
  have hdigit : c.isDigit = true := isDigit_toDigits c (hcs ▸ List.mem_cons_self)
  intro hblank
  have hspace := trim_eq_empty.mp hblank c (mem_tabbed (List.mem_append_left _ (by
    simp [DumpPeer.cells])) hmem)
  simp [Relay.isWhitespace, isSpace_of_isDigit hdigit] at hspace

theorem addPeer_peer (hdistinct : (interfaces.map (·.name)).Nodup) (trailingTab : Bool) :
    addPeer interfaces (DumpLine.peer p trailingTab).text =
      interfaces.map fun item => if item.name = p.interface.1 then
        addCounters p.latestHandshake.toNat p.rx.toNat p.tx.toNat item else item := by
  have hnumber : ∀ n : UInt64, parseUnsigned 64 (toString n.toNat) = some n.toNat :=
    fun n => parseUnsigned_toString n.toNat_lt
  unfold addPeer
  rw [if_neg (trim_peer p trailingTab), columns_peer]
  simp only [DumpPeer.cells, List.cons_append, hnumber, Option.getD_some]
  exact Rows.updateFirst_eq_map hdistinct

theorem foldl_addPeer {dump : Dump} {listed : List DumpInterface}
    (hdistinct : (listed.map (·.name.1)).Nodup) (before : Dump) :
    dump.foldl (fun interfaces line => addPeer interfaces line.text)
        (listed.map fun i => i.total (before.peersOf i.name.1)) =
      listed.map fun i => i.total (Dump.peersOf (before ++ dump) i.name.1) := by
  induction dump generalizing before with
  | nil => simp
  | cons line dump ih =>
    have hstep : addPeer (listed.map fun i => i.total (before.peersOf i.name.1)) line.text =
        listed.map fun i => i.total (Dump.peersOf (before ++ [line]) i.name.1) := by
      cases line with
      | interface i =>
        rw [addPeer_interface]
        simp [Dump.peersOf, Dump.peers]
      | peer p trailingTab =>
        have hnames : ((listed.map fun i => i.total (before.peersOf i.name.1)).map (·.name)).Nodup := by
          simpa [DumpInterface.total, newStatus, Function.comp_def] using hdistinct
        rw [addPeer_peer hnames, List.map_map]
        refine List.map_congr_left fun i _ => ?_
        by_cases hname : p.interface.1 = i.name.1
        · have hpeers : Dump.peersOf (before ++ [.peer p trailingTab]) i.name.1 =
              before.peersOf i.name.1 ++ [p] := by
            simp [Dump.peersOf, Dump.peers, hname]
          rw [hpeers, ← addCounters_total]
          exact if_pos hname.symm
        · have hpeers : Dump.peersOf (before ++ [.peer p trailingTab]) i.name.1 =
              before.peersOf i.name.1 := by
            simp [Dump.peersOf, Dump.peers, hname]
          rw [hpeers]
          exact if_neg (Ne.symm hname)
      | other line =>
        rw [addPeer_other]
        simp [Dump.peersOf, Dump.peers]
    rw [List.foldl_cons, hstep, ih (before ++ [line]), List.append_assoc, List.singleton_append]

theorem parseWgDump_text {dump : Dump} (hne : ∀ i ∈ dump.interfaces, i.name.1 ≠ "")
    (hdistinct : (dump.interfaces.map (·.name.1)).Nodup) (ended : Bool) :
    parseWgDump (dump.text ended) =
      (dump.interfaces.filter (·.Listed)).map fun i => i.total (dump.peersOf i.name.1) := by
  have hlisted : ((dump.interfaces.filter (·.Listed)).map (·.name.1)).Nodup :=
    hdistinct.sublist (List.filter_sublist.map _)
  unfold parseWgDump
  rw [foldl_text addInterface_stripReturn (fun _ => rfl),
    foldl_text addPeer_stripReturn (fun _ => rfl),
    foldl_addInterface hne (fun _ _ _ h => absurd h List.not_mem_nil) hdistinct, List.nil_append]
  exact foldl_addPeer hlisted []

/-- The status of every listed interface is the sum of its peers, and its texts
are public columns, however the lines are interleaved. -/
theorem parseWgDump_aggregates (dump : Dump) (ended : Bool)
    (hne : ∀ i ∈ dump.interfaces, i.name.1 ≠ "")
    (hdistinct : (dump.interfaces.map (·.name.1)).Nodup) :
    parseWgDump (dump.text ended) =
        (dump.interfaces.filter (·.Listed)).map (fun i => i.total (dump.peersOf i.name.1)) ∧
      ∀ item ∈ parseWgDump (dump.text ended), ∀ text ∈ item.texts,
        text ∈ dump.secrets → text ∈ dump.publicColumns := by
  have hparse := parseWgDump_text hne hdistinct ended
  refine ⟨hparse, ?_⟩
  simp only [hparse, List.forall_mem_map, List.mem_filter]
  rintro i ⟨hi, -⟩ text htext -
  simp only [WireGuardInterfaceStatus.texts, DumpInterface.total, newStatus, List.mem_cons,
    List.not_mem_nil, or_false] at htext
  rw [Dump.publicColumns, List.mem_flatMap]
  refine ⟨i, hi, ?_⟩
  rcases htext with rfl | rfl <;> simp

def wg0 (privateKey : Column) : DumpInterface where
  name := ⟨"wg0", by decide⟩
  privateKey := privateKey
  publicKey := ⟨"pub=", by decide⟩
  listenPort := ⟨"51820", by decide⟩
  fwmark := ⟨"off", by decide⟩

def wg0Peer : DumpPeer where
  interface := ⟨"wg0", by decide⟩
  publicKey := ⟨"peer=", by decide⟩
  presharedKey := ⟨"psk=", by decide⟩
  endpoint := ⟨"198.51.100.7:51820", by decide⟩
  allowedIps := ⟨"10.0.0.2/32", by decide⟩
  latestHandshake := 1700000000
  rx := 7
  tx := 9
  keepalive := ⟨"25", by decide⟩

/-- The peer of an interface may be ahead of it. -/
theorem parseWgDump_aggregates_wg0 :
    parseWgDump (Dump.text [.peer wg0Peer true, .interface (wg0 ⟨"key=", by decide⟩)] true) =
      [{ name := "wg0", publicKey := "pub=", listenPort := some 51820, peerCount := 1,
         running := false, addresses := [], rxBytes := 7, txBytes := 9,
         latestHandshakeAt := some 1700000000 }] :=
  (parseWgDump_aggregates [.peer wg0Peer true, .interface (wg0 ⟨"key=", by decide⟩)] true
    (by decide) (by decide)).1.trans (by decide +kernel)

/-- An interface without a private key is not listed. -/
theorem parseWgDump_no_private_key :
    (Dump.interfaces [.interface (wg0 ⟨"", by decide⟩)]).map (·.name.1) = ["wg0"] ∧
      parseWgDump (Dump.text [.interface (wg0 ⟨"", by decide⟩)] true) = [] :=
  ⟨by decide, by decide +kernel⟩

end LabProbe.WireGuard
