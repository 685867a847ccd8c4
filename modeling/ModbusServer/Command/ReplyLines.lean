import ModbusServer.Command.ProcessJson
import ModbusServer.Json.MemberStrings
import ModbusServer.Json.PrintedLines

/-!
# The lines of the replies

A reply is printed with its strings as they stand, and the only string of a reply that comes from
the request is the datatype of an update. The decoder has replaced the escapes of that string and
cut it at its first zero character, and every datatype reaches the reply of an accepted update, also
one that the processors do not know. So the replies are lines of JSON that echo their request
exactly if the whole datatype string of every accepted update stands for itself between quotes.

## Main definitions

* `ModbusServer.requestedDatatype`: the whole datatype string of a text.
* `ModbusServer.Echoes`: a reply gives back the datatype and the address of a request.
* `ModbusServer.WellFormedReplies`: the replies are lines of JSON, and reports of updates echo.

## Main results

* `ModbusServer.wellFormedReplies_iff`: for which texts the replies of both processors are well
  formed.
-/

namespace ModbusServer

open CInt CText StrictJson

/-- The datatype string of a text, with all its characters. -/
def requestedDatatype (json_str : Bytes) : Option Bytes := memberString (ascii "datatype") json_str

/-- The text `json_str` is a request, and parsing the reply gives an object with its datatype string
and its address. -/
def Echoes (json_str reply : Bytes) : Prop :=
  ∃ u s root d, updateRequest json_str = some u ∧ requestedDatatype json_str = some s ∧
    cJSONParse reply = some root ∧
    getObjectItemCaseSensitive root (ascii "datatype") = some (.string s) ∧
    getObjectItemCaseSensitive root (ascii "address") = some (.number d) ∧ saturate d = u.address

/-- Every text that is printed is one line with one JSON object, and a report of an update echoes
the request. -/
structure WellFormedReplies (json_str : Bytes) (effects : List Effect) : Prop where
  lines : ∀ text ∈ printed effects, IsObjectLine text
  echoes : ∀ text ∈ printed effects, isUpdatedLine text = true → Echoes json_str text

/-! ### The texts as objects -/

/-- The members of the report of an update. -/
def updatedMembers (address : ℤ) (datatype : Bytes) : List (Bytes × Scalar) :=
  [(ascii "status", .text (ascii "updated")), (ascii "address", .int address),
    (ascii "datatype", .text datatype)]

theorem updatedLine_eq (address : ℤ) (datatype : Bytes) :
    updatedLine address datatype = printObject (updatedMembers address datatype) ++ [10] := by
  have hhead : ascii "\x7b\"status\":\"updated\",\"address\":" =
      123 :: 34 :: (ascii "status" ++ 34 :: 58 :: 34 :: (ascii "updated" ++
        34 :: 44 :: 34 :: (ascii "address" ++ [34, 58]))) := by decide
  have hmiddle : ascii ",\"datatype\":\"" = 44 :: 34 :: (ascii "datatype" ++ [34, 58, 34]) := by
    decide
  have htail : ascii "\"\x7d\n" = [34, 125, 10] := by decide
  rw [updatedLine, hhead, hmiddle, htail]
  simp [printObject, updatedMembers, printMembers, Scalar.print]

/-- The members of an error about an address. -/
def errorMembers (error : Bytes) (address : ℤ) : List (Bytes × Scalar) :=
  [(ascii "error", .text error), (ascii "address", .int address)]

theorem indexOutOfBoundsLine_eq (address : ℤ) : indexOutOfBoundsLine address =
    printObject (errorMembers (ascii "index_out_of_bounds") address) ++ [10] := by
  have hhead : ascii "\x7b\"error\":\"index_out_of_bounds\",\"address\":" =
      123 :: 34 :: (ascii "error" ++ 34 :: 58 :: 34 :: (ascii "index_out_of_bounds" ++
        34 :: 44 :: 34 :: (ascii "address" ++ [34, 58]))) := by decide
  have htail : ascii "\x7d\n" = [125, 10] := by decide
  rw [indexOutOfBoundsLine, hhead, htail]
  simp [printObject, errorMembers, printMembers, Scalar.print]

theorem addressOutOfRangeLine_eq (address : ℤ) : addressOutOfRangeLine address =
    printObject (errorMembers (ascii "address_out_of_range") address) ++ [10] := by
  have hhead : ascii "\x7b\"error\":\"address_out_of_range\",\"address\":" =
      123 :: 34 :: (ascii "error" ++ 34 :: 58 :: 34 :: (ascii "address_out_of_range" ++
        34 :: 44 :: 34 :: (ascii "address" ++ [34, 58]))) := by decide
  have htail : ascii "\x7d\n" = [125, 10] := by decide
  rw [addressOutOfRangeLine, hhead, htail]
  simp [printObject, errorMembers, printMembers, Scalar.print]

/-- Is the string printable ASCII without quotes and backslashes? -/
def isPrintable (s : Bytes) : Bool := s.all fun c => 32 ≤ c && c < 128 && c ≠ 34 && c ≠ 92

theorem isPlain_of_isPrintable {s : Bytes} (h : isPrintable s = true) : IsPlain s :=
  isPlain_of_ascii fun c hc => by simpa [and_assoc] using List.all_eq_true.mp h c hc

theorem isObjectLine_of_isPrintable {ms : List (Bytes × Scalar)} (hms : ms ≠ [])
    (h : ∀ s ∈ objectStrings ms, isPrintable s = true) :
    IsObjectLine (printObject ms ++ [10]) :=
  (isObjectLine_printObject_iff hms fun s hs => (isPlain_of_isPrintable (h s hs)).noSpecial).mpr
    fun s hs => isPlain_of_isPrintable (h s hs)

/-- A message with one string. -/
theorem isObjectLine_message {name s : Bytes} (h : isPrintable name = true ∧ isPrintable s = true) :
    IsObjectLine (printObject [(name, .text s)] ++ [10]) :=
  isObjectLine_of_isPrintable (List.cons_ne_nil _ _) (by simpa [Scalar.strings] using h)

theorem isObjectLine_errorMembers {error : Bytes} (h : isPrintable error = true) (address : ℤ) :
    IsObjectLine (printObject (errorMembers error address) ++ [10]) := by
  have hnames : isPrintable (ascii "error") = true ∧ isPrintable (ascii "address") = true := by
    decide
  exact isObjectLine_of_isPrintable (List.cons_ne_nil _ _)
    (by simpa [errorMembers, Scalar.strings] using ⟨hnames.1, h, hnames.2⟩)

/-- A command is answered with a line of JSON. -/
theorem isObjectLine_processCommand {root : CJson} (h : isCommand root = true) (flags : Flags)
    (update : List Effect) :
    ∀ text ∈ printed (processCommand root flags update).1, IsObjectLine text := by
  have hmessage (text name s : Bytes) (heq : text = printObject [(name, .text s)] ++ [10])
      (hs : isPrintable name = true ∧ isPrintable s = true) :
      ∀ t ∈ printed [.print text], IsObjectLine t := by
    simpa [Effect.print?, heq] using isObjectLine_message hs
  simp only [processCommand]
  split_ifs with hstop hstart hrunning hstatus
  · exact hmessage _ (ascii "status") (ascii "stopping") (by decide) (by decide)
  · exact hmessage _ (ascii "error") (ascii "already_running") (by decide) (by decide)
  · exact hmessage _ (ascii "status") (ascii "starting") (by decide) (by decide)
  · cases flags.server_state with
    | running => exact hmessage _ (ascii "status") (ascii "running") (by decide) (by decide)
    | stopped => exact hmessage _ (ascii "status") (ascii "stopped") (by decide) (by decide)
  · simp [isCommand, hstop, hstart, hstatus] at h

/-! ### Echoes -/

section Echoes

variable {u : UpdateRequest} {json_str : Bytes} {effects : List Effect}

/-- The first member that the loop reads is the one in front of it. -/
theorem exists_of_continueMembers {fuel depth : ℕ} {name rest : Bytes} {r : CJson × Bytes}
    {ms : List (Bytes × CJson)} (h : continueMembers fuel depth name r = some (ms, rest)) :
    ∃ ms', ms = (name, r.1) :: ms' := by
  rw [continueMembers] at h
  cases hw : skipWhitespace r.2 with
  | nil => simp [hw] at h
  | cons c t =>
    rw [hw] at h
    simp only at h
    split_ifs at h
    · obtain ⟨ms', -, rfl⟩ := map_eq_some_rest.mp h
      exact ⟨ms', rfl⟩
    · obtain ⟨rfl, -⟩ := by simpa using h
      exact ⟨[], rfl⟩

theorem isInt_natAbs_lt {v : ℤ} (h : IsInt v) : v.natAbs < 2 ^ 53 := by
  rw [isInt_iff] at h
  omega

/-- What the parser makes of a report: the datatype is what it reads from behind its quote. -/
theorem datatype_of_updatedLine {address : ℤ} {datatype : Bytes} (haddress : IsInt address)
    (hzero : 0 ∉ datatype) {root : CJson}
    (h : cJSONParse (updatedLine address datatype) = some root) :
    ∃ v rest, getObjectItemCaseSensitive root (ascii "datatype") = some (.string v) ∧
      parseString (34 :: (datatype ++ 34 :: [125, 10])) = some (v, rest) := by
  -- the text from behind the first quote of each of the three members
  set third := ascii "datatype" ++ 34 :: 58 :: 34 :: (datatype ++ 34 :: [125, 10]) with hthird
  set second := ascii "address" ++ 34 :: 58 :: ((Scalar.int address).print ++ 44 :: 34 :: third)
    with hsecond
  set first := ascii "status" ++ 34 :: 58 ::
    ((Scalar.text (ascii "updated")).print ++ 44 :: 34 :: second) with hfirst
  have hline : updatedLine address datatype = 123 :: 34 :: first := by
    rw [updatedLine_eq]
    simp [printObject, updatedMembers, printMembers, Scalar.print, hfirst, hsecond, hthird]
  have hnames : IsVerbatim (ascii "status") ∧ IsVerbatim (ascii "updated") ∧
      IsVerbatim (ascii "address") ∧ IsVerbatim (ascii "datatype") := by decide +kernel
  have htext : (Scalar.text (ascii "updated")).IsVerbatim := hnames.2.1
  have hint : (Scalar.int address).IsVerbatim := isInt_natAbs_lt haddress
  have hzero' : 0 ∉ first := by
    have hprint := zero_notMem_print hint
    have hupdated := zero_notMem_print htext
    have hascii : (0 : UInt8) ∉ ascii "status" ∧ (0 : UInt8) ∉ ascii "address" ∧
        (0 : UInt8) ∉ ascii "datatype" := by decide
    simp [hfirst, hsecond, hthird, hprint, hupdated, hascii, hzero]
  rw [hline, @cJSONParse_brace (2 * first.length + 5) _ hzero' (by omega)] at h
  obtain ⟨⟨child, rest⟩, hmembers, rfl⟩ := Option.map_eq_some_iff.mp h
  -- the first two members are read as they are printed
  rw [hfirst, parseMembers_print_comma hnames.1 htext (by decide)] at hmembers
  obtain ⟨⟨child', rest'⟩, hmembers, hchild⟩ := Option.map_eq_some_iff.mp hmembers
  rw [hsecond, parseMembers_print_comma hnames.2.2.1 hint (by decide)] at hmembers
  obtain ⟨⟨child'', rest''⟩, hmembers, hchild'⟩ := Option.map_eq_some_iff.mp hmembers
  -- the third is a string, whatever its end
  rw [hthird, parseMembers_cons hnames.2.2.2 (by decide), parseValue_quote] at hmembers
  obtain ⟨r, hvalue, hcontinue⟩ := Option.bind_eq_some_iff.mp hmembers
  obtain ⟨⟨v, u⟩, hparse, rfl⟩ := Option.map_eq_some_iff.mp hvalue
  obtain ⟨ms', rfl⟩ := exists_of_continueMembers hcontinue
  obtain ⟨rfl, -⟩ := Prod.mk.inj hchild'
  obtain ⟨rfl, -⟩ := Prod.mk.inj hchild
  exact ⟨v, u, rfl, hparse⟩

/-- The datatype of a request is the beginning of the string in its text. -/
theorem exists_requestedDatatype (hu : updateRequest json_str = some u) :
    ∃ s, requestedDatatype json_str = some s ∧ cString s = u.datatype := by
  obtain ⟨root, hroot, -, hread⟩ := exists_of_updateRequest hu
  obtain ⟨-, -, hdatatype, -⟩ := readUpdate_eq_some_iff.mp hread
  exact exists_memberString hroot hdatatype

/-- A report that echoes has been printed with the whole string of the request, and without quotes
and backslashes in it. -/
theorem noSpecial_of_echoes (hu : updateRequest json_str = some u)
    (h : Echoes json_str (updatedLine u.address u.datatype)) :
    requestedDatatype json_str = some u.datatype ∧ NoSpecial u.datatype := by
  obtain ⟨u', s, root, d, hu', hs, hroot, hdatatype, -⟩ := h
  obtain rfl : u = u' := Option.some.inj (hu.symm.trans hu')
  have hzero : 0 ∉ s := by
    cases root with
    | object child =>
      obtain ⟨⟨name, j⟩, hfind, hj⟩ := Option.map_eq_some_iff.mp hdatatype
      obtain rfl : j = .string s := hj
      exact zero_notMem_of_cJSONParse hroot (List.mem_of_find?_eq_some hfind)
    | _ => simp [getObjectItemCaseSensitive] at hdatatype
  obtain ⟨s', hs', hcut⟩ := exists_requestedDatatype hu
  obtain rfl : s = s' := Option.some.inj (hs.symm.trans hs')
  obtain rfl : s = u.datatype := (cString_of_notMem hzero).symm.trans hcut
  obtain ⟨v, rest, hv, hparse⟩ := datatype_of_updatedLine u.isInt_address hzero hroot
  obtain rfl : u.datatype = v := by simpa using hdatatype.symm.trans hv
  exact ⟨hs, (not_special_of_parseString (by decide) hparse).1⟩

/-- A plain datatype is echoed. -/
theorem echoes_of_isPlain (hu : updateRequest json_str = some u)
    (hs : requestedDatatype json_str = some u.datatype) (h : IsPlain u.datatype) :
    Echoes json_str (updatedLine u.address u.datatype) := by
  have hverbatim : IsVerbatim u.datatype := by
    intro c hc
    refine ⟨(h.noSpecial c hc).1, (h.noSpecial c hc).2, ?_⟩
    rintro rfl
    exact absurd (h.noControl 0 hc) (by decide)
  have hnames : IsVerbatim (ascii "status") ∧ IsVerbatim (ascii "updated") ∧
      IsVerbatim (ascii "address") ∧ IsVerbatim (ascii "datatype") := by decide +kernel
  have hmembers : ∀ m ∈ updatedMembers u.address u.datatype,
      IsVerbatim m.1 ∧ m.2.IsVerbatim := by
    simp only [updatedMembers, List.forall_mem_cons, List.not_mem_nil, false_imp_iff, implies_true,
      and_true]
    exact ⟨⟨hnames.1, hnames.2.1⟩, ⟨hnames.2.2.1, isInt_natAbs_lt u.isInt_address⟩,
      hnames.2.2.2, hverbatim⟩
  have hne : updatedMembers u.address u.datatype ≠ [] := List.cons_ne_nil _ _
  have hparse := cJSONParse_printObject hne hmembers [10] (by decide)
  rw [← updatedLine_eq] at hparse
  exact ⟨u, _, _, _, hu, hs, hparse, rfl, rfl, saturate_ofInt u.isInt_address⟩

/-- The report of an update is well formed exactly if the whole datatype string of the request
stands for itself. -/
theorem wellFormedReplies_effects_iff (hu : updateRequest json_str = some u) (idx : ℤ) :
    WellFormedReplies json_str (u.effects idx) ↔
      ∀ s, requestedDatatype json_str = some s → IsPlain s := by
  have hstrings (hspecial : NoSpecial u.datatype) :
      IsObjectLine (updatedLine u.address u.datatype) ↔ IsPlain u.datatype := by
    have hplain : IsPlain (ascii "status") ∧ IsPlain (ascii "updated") ∧
        IsPlain (ascii "address") ∧ IsPlain (ascii "datatype") :=
      ⟨isPlain_of_isPrintable (by decide), isPlain_of_isPrintable (by decide),
        isPlain_of_isPrintable (by decide), isPlain_of_isPrintable (by decide)⟩
    have hmembers : updatedMembers u.address u.datatype ≠ [] := List.cons_ne_nil _ _
    rw [updatedLine_eq, isObjectLine_printObject_iff hmembers]
    · simp [updatedMembers, Scalar.strings, hplain]
    · simpa [updatedMembers, Scalar.strings, hplain.1.noSpecial, hplain.2.1.noSpecial,
        hplain.2.2.1.noSpecial, hplain.2.2.2.noSpecial] using hspecial
  constructor
  · rintro ⟨hlines, hechoes⟩ s hs
    have hmem : updatedLine u.address u.datatype ∈ printed (u.effects idx) := by simp
    obtain ⟨hs', hspecial⟩ :=
      noSpecial_of_echoes hu (hechoes _ hmem (isUpdatedLine_updatedLine _ _))
    obtain rfl : s = u.datatype := Option.some.inj (hs.symm.trans hs')
    exact (hstrings hspecial).mp (hlines _ hmem)
  · intro h
    obtain ⟨s, hs, hcut⟩ := exists_requestedDatatype hu
    have hplain : IsPlain s := h s hs
    -- a zero character would be a control character, so the whole string has been printed
    have hzero : 0 ∉ s := fun hmem => absurd (hplain.noControl 0 hmem) (by decide)
    obtain rfl : s = u.datatype := (cString_of_notMem hzero).symm.trans hcut
    refine ⟨?_, fun text htext _ => ?_⟩
    · simpa using (hstrings hplain.noSpecial).mpr hplain
    · obtain rfl : text = updatedLine u.address u.datatype := by simpa using htext
      exact echoes_of_isPlain hu hs hplain

/-! ### Replies that report no update -/

/-- Lines of JSON that report no update. -/
theorem wellFormedReplies_of_reportsUpdate (h : ∀ text ∈ printed effects, IsObjectLine text)
    (hreports : reportsUpdate effects = false) : WellFormedReplies json_str effects := by
  refine ⟨h, fun text htext hupdated => ?_⟩
  rw [reportsUpdate, List.any_eq_false] at hreports
  exact absurd hupdated (hreports text htext)

theorem wellFormedReplies_print {text : Bytes} (h : IsObjectLine text)
    (hreports : isUpdatedLine text = false) : WellFormedReplies json_str [.print text] :=
  wellFormedReplies_of_reportsUpdate (by simpa [Effect.print?] using h) (by simpa using hreports)

theorem wellFormedReplies_indexOutOfBounds (address : ℤ) :
    WellFormedReplies json_str [.print (indexOutOfBoundsLine address)] := by
  refine wellFormedReplies_print ?_ rfl
  rw [indexOutOfBoundsLine_eq]
  exact isObjectLine_errorMembers (by decide) address

theorem wellFormedReplies_addressOutOfRange (address : ℤ) :
    WellFormedReplies json_str [.print (addressOutOfRangeLine address)] := by
  refine wellFormedReplies_print ?_ rfl
  rw [addressOutOfRangeLine_eq]
  exact isObjectLine_errorMembers (by decide) address

theorem wellFormedReplies_indexError :
    WellFormedReplies json_str [.print indexErrorLine] := by
  have heq : indexErrorLine =
      printObject [(ascii "error", .text (ascii "index_out_of_bounds"))] ++ [10] := by decide
  refine wellFormedReplies_print ?_ rfl
  rw [heq]
  exact isObjectLine_message (by decide)

end Echoes

/-! ### The replies of the processors -/

/-- Texts that are no update requests. -/
theorem wellFormedReplies_jsonCommandProcess_of_none {json_str : Bytes}
    (h : updateRequest json_str = none) (mapping : Option Mapping) (flags : Flags) :
    WellFormedReplies json_str (jsonCommandProcess json_str mapping flags).1 := by
  refine wellFormedReplies_of_reportsUpdate ?_
    (jsonCommandProcess_of_none h mapping flags).reportsUpdate_eq
  rcases jsonCommandProcess_ways h mapping flags with heq | ⟨text, heq⟩ | ⟨root, update, hcmd, heq⟩
  · simp [heq]
  · simp [heq, Effect.print?]
  · rw [heq]
    exact isObjectLine_processCommand hcmd flags update

/-- Without a table no update is printed. -/
theorem jsonCommandProcess_none_of_updateRequest {json_str : Bytes} {u : UpdateRequest}
    (h : updateRequest json_str = some u) (flags : Flags) :
    jsonCommandProcess json_str none flags = ([], flags) := by
  obtain ⟨root, hroot, hcmd, hu⟩ := exists_of_updateRequest h
  simp only [jsonCommandProcess, hroot, processCommand_of_not_isCommand hcmd,
    jsonCommandUpdateData, hu]

/-- Texts that are no update requests. -/
theorem wellFormedReplies_processJson_of_none {json_str : Bytes}
    (h : updateRequest json_str = none) (cfg : Config) (mb_mapping : Option Mapping)
    (flags : Flags) : WellFormedReplies json_str (processJson cfg mb_mapping flags json_str).1 := by
  refine wellFormedReplies_of_reportsUpdate ?_
    (processJson_of_none h cfg mb_mapping flags).reportsUpdate_eq
  rcases processJson_ways h cfg mb_mapping flags with heq | ⟨root, update, hcmd, heq⟩
  · simp [heq]
  · rw [heq]
    exact isObjectLine_processCommand hcmd flags update

/-- Without a table no update is reported, and what is printed is a line of JSON. -/
theorem wellFormedReplies_processJson_none {json_str : Bytes} {u : UpdateRequest}
    (h : updateRequest json_str = some u) (cfg : Config) (flags : Flags) :
    WellFormedReplies json_str (processJson cfg none flags json_str).1 := by
  obtain ⟨root, hroot, hcmd, hu⟩ := exists_of_updateRequest h
  simp only [processJson, hroot, processCommand_of_not_isCommand hcmd, processUpdate, hu]
  split_ifs
  · exact wellFormedReplies_addressOutOfRange _
  · exact wellFormedReplies_indexError
  · exact wellFormedReplies_of_reportsUpdate (by simp [Effect.print?]) rfl

/-- **The replies are lines of JSON that echo their requests** exactly if the whole datatype string
of every update that is accepted stands for itself between quotes: it is UTF-8 without quotes,
backslashes and control characters, the zero character among them. -/
theorem wellFormedReplies_iff (json_str : Bytes) (mapping : Option Mapping) (cfg : Config)
    (flags : Flags) :
    (WellFormedReplies json_str (jsonCommandProcess json_str mapping flags).1 ↔
      ∀ u mb, updateRequest json_str = some u → mapping = some mb → 0 ≤ u.address →
        u.address < mb.nb_registers → ∀ s, requestedDatatype json_str = some s → IsPlain s) ∧
    (WellFormedReplies json_str (processJson cfg mapping flags json_str).1 ↔
      ∀ u mb, updateRequest json_str = some u → mapping = some mb →
        cfg.accepts mb u.address = true →
        ∀ s, requestedDatatype json_str = some s → IsPlain s) := by
  cases hu : updateRequest json_str with
  | none =>
    exact ⟨iff_of_true (wellFormedReplies_jsonCommandProcess_of_none hu mapping flags) (by simp),
      iff_of_true (wellFormedReplies_processJson_of_none hu cfg mapping flags) (by simp)⟩
  | some u =>
    cases mapping with
    | none =>
      rw [jsonCommandProcess_none_of_updateRequest hu]
      exact ⟨iff_of_true (wellFormedReplies_of_reportsUpdate (by simp) rfl) (by simp),
        iff_of_true (wellFormedReplies_processJson_none hu cfg flags) (by simp)⟩
    | some mb =>
      constructor
      · rw [jsonCommandProcess_eq_of_some hu]
        by_cases hin : 0 ≤ u.address ∧ u.address < mb.nb_registers
        · rw [if_pos hin, wellFormedReplies_effects_iff hu]
          simp [hin]
        · rw [if_neg hin]
          refine iff_of_true (wellFormedReplies_indexOutOfBounds _) ?_
          rintro _ _ ⟨⟩ ⟨⟩ h0 hlt
          exact absurd ⟨h0, hlt⟩ hin
      · rw [processJson_eq_of_some hu]
        split_ifs with hrange hlt
        · rw [wellFormedReplies_effects_iff hu]
          simp [Config.accepts, hrange, hlt]
        · refine iff_of_true wellFormedReplies_indexError ?_
          rintro _ _ ⟨⟩ ⟨⟩ hacc
          exact absurd (Config.accepts_iff.mp hacc).2 hlt
        · refine iff_of_true (wellFormedReplies_addressOutOfRange _) ?_
          rintro _ _ ⟨⟩ ⟨⟩ hacc
          exact absurd (Config.accepts_iff.mp hacc).1 hrange

/-- An update whose datatype closes its string and the object and begins another line: the text has
the escapes `\"` and `\n`. -/
def forgedLines : Bytes :=
  ascii "\x7b\"type\":\"holding_registers\",\"address\":0," ++
    ascii "\"datatype\":\"\\\"\x7d\\n\x7b\\\"status\\\":\\\"exited\",\"value\":1\x7d"

/-- `forgedLines` is answered with two lines. -/
theorem not_wellFormedReplies : ¬∀ (json_str : Bytes) (mapping : Option Mapping) (cfg : Config)
    (flags : Flags),
    WellFormedReplies json_str (jsonCommandProcess json_str mapping flags).1 ∧
      WellFormedReplies json_str (processJson cfg mapping flags json_str).1 := by
  intro h
  have hmem : ascii "\x7b\"status\":\"updated\",\"address\":0,\"datatype\":\"\"\x7d\n" ++
      ascii "\x7b\"status\":\"exited\"\x7d\n" ∈
        printed (jsonCommandProcess forgedLines (some { tab_registers := [0] })
          ⟨.running, true⟩).1 := by
    decide +kernel
  have hline := (h forgedLines (some { tab_registers := [0] }) {} ⟨.running, true⟩).1.lines _ hmem
  obtain ⟨object, heq, hobject, -⟩ := hline
  have hcount : List.count 10 (object ++ [10]) = 1 := by
    simpa using List.count_eq_zero.mpr hobject
  rw [← heq] at hcount
  exact absurd hcount (by decide)

end ModbusServer
