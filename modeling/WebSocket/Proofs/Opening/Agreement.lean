import WebSocket.Peer.Client
import WebSocket.Proofs.Opening.Grouping
import WebSocket.Proofs.Opening.Heads
import WebSocket.Proofs.Opening.Replies

/-!
# A client and a server that agree

A client writes its request, the server takes it apart, and the client checks the reply.  Whatever
further header lines the client writes, they come to an agreement, as long as none of these lines
speaks of its key or its version: the fields of its own lines stand first, and what the others add
to the lists under `Upgrade` and `Connection` takes nothing away.

    Presents (clientRequest key extra) (clientFields key ++ fields)    (presents_clientRequest)
    checkRequest (clientRequest (some (keyOf nonce)) extra) = .ok (keyOf nonce)
                                                                    (checkRequest_clientRequest)
-/

namespace WebSocket

/-- A text without blanks has none at its ends. -/
theorem Text.trim_of_forall {text : List Char} (h : ∀ c ∈ text, isBlank c = false) :
    trim text = text := by
  have hdrop {text : List Char} (h : ∀ c ∈ text, isBlank c = false) :
      text.dropWhile isBlank = text := by
    cases text with
    | nil => rfl
    | cons c text => rw [List.dropWhile_cons_of_neg (by simp [h c])]
  rw [trim, hdrop h, hdrop fun c hc => h c (List.mem_reverse.mp hc), List.reverse_reverse]

theorem Base64.isBlank_of_mem {octets : Bytes} {c : Char} (h : c ∈ encode octets) :
    Text.isBlank c = false := by
  have hall : ('=' :: alphabet).all fun c => !Text.isBlank c := by decide
  simpa using List.all_eq_true.mp hall c (mem_encode h)

namespace Opening

/-! ## The request of a client -/

/-- A header line that a client may add: its field is neither the client's key nor its version. -/
structure IsExtra (line : List Char) : Prop where
  free : ¬ lineEnd <:+: line
  field : ∃ field, IsField line field ∧ field.1 ≠ "sec-websocket-key".toList ∧
    field.1 ≠ "sec-websocket-version".toList

def keyOf (nonce : Bytes) : String := String.ofList (Base64.encode nonce)

/-- The request of a client, with further header lines. -/
def clientRequest (key : Option String) (extra : List (List Char)) : Bytes :=
  Bytes.ofString (Peer.upgradeRequest key (String.ofList (written extra)))

/-- The header lines that a client writes first. -/
def clientLines (key : Option String) : List (List Char) :=
  ["Host: localhost".toList, "Upgrade: websocket".toList, "Connection: Upgrade".toList] ++
    (key.map fun key => "Sec-WebSocket-Key: ".toList ++ key.toList).toList ++
    ["Sec-WebSocket-Version: 13".toList]

def clientFields (key : Option String) : List Field :=
  [("host".toList, "localhost".toList), ("upgrade".toList, "websocket".toList),
    ("connection".toList, "Upgrade".toList)] ++
    (key.map fun key => ("sec-websocket-key".toList, key.toList)).toList ++
    [("sec-websocket-version".toList, "13".toList)]

/-- A key that stands in one line and has no blanks. -/
def IsPlain (key : String) : Prop := ∀ c ∈ key.toList, Text.isBlank c = false

variable {key : Option String} {extra : List (List Char)} {fields : List Field}

theorem toList_concat {a b c d e : String} {a' b' c' d' e' : List Char} (ha : a.toList = a')
    (hb : b.toList = b') (hc : c.toList = c') (hd : d.toList = d') (he : e.toList = e') :
    (a ++ b ++ c ++ d ++ e).toList = a' ++ b' ++ c' ++ d' ++ e' := by
  subst ha hb hc hd he
  simp only [String.toList_append]

/-- The request is written line by line. -/
theorem toList_upgradeRequest (key : Option String) (extra : List (List Char)) :
    (Peer.upgradeRequest key (String.ofList (written extra))).toList =
      written ("GET /chat HTTP/1.1".toList :: (clientLines key ++ extra)) ++ lineEnd := by
  have hstart :
    "GET /chat HTTP/1.1\r\nHost: localhost\r\nUpgrade: websocket\r\nConnection: Upgrade\r\n".toList
      = written ["GET /chat HTTP/1.1".toList, "Host: localhost".toList,
        "Upgrade: websocket".toList, "Connection: Upgrade".toList] := by
    decide
  have hversion : "Sec-WebSocket-Version: 13\r\n".toList =
      written ["Sec-WebSocket-Version: 13".toList] := by
    decide
  have hextra : (String.ofList (written extra)).toList = written extra := String.toList_ofList
  cases key with
  | none =>
    have hnone : "".toList = written [] := rfl
    refine (toList_concat hstart hnone hversion hextra rfl).trans ?_
    rw [← written_append, ← written_append, ← written_append]
    rfl
  | some key =>
    have hkey : ("Sec-WebSocket-Key: " ++ key ++ "\r\n").toList =
        written ["Sec-WebSocket-Key: ".toList ++ key.toList] := by
      rw [String.toList_append, String.toList_append]
      exact (List.append_nil _).symm
    refine (toList_concat hstart hkey hversion hextra rfl).trans ?_
    rw [← written_append, ← written_append, ← written_append]
    rfl

theorem free_of_not_mem {line : List Char} (h : '\r' ∉ line) : ¬ lineEnd <:+: line :=
  fun hwithin => h (hwithin.subset (by simp [lineEnd]))

theorem free_clientLines (hkey : ∀ k ∈ key, IsPlain k) :
    ∀ line ∈ clientLines key, ¬ lineEnd <:+: line := by
  intro line hmem
  apply free_of_not_mem
  have hfixed : ∀ line ∈ ["Host: localhost".toList, "Upgrade: websocket".toList,
      "Connection: Upgrade".toList] ++ ["Sec-WebSocket-Version: 13".toList], '\r' ∉ line := by
    decide
  cases key with
  | none => exact hfixed line hmem
  | some key =>
    have hcr : '\r' ∉ key.toList := fun hcr => absurd (hkey key rfl _ hcr) (by decide)
    rcases List.mem_append.mp hmem with hmem | hmem
    · rcases List.mem_append.mp hmem with hmem | hmem
      · exact hfixed line (List.mem_append_left _ hmem)
      · rw [List.mem_singleton.mp hmem, List.mem_append, not_or]
        exact ⟨by decide, hcr⟩
    · exact hfixed line (List.mem_append_right _ hmem)

theorem isField_key {key : String} (h : IsPlain key) :
    IsField ("Sec-WebSocket-Key: ".toList ++ key.toList)
      ("sec-websocket-key".toList, key.toList) := by
  have hspace : Text.Blank [' '] := by simp [Text.Blank, Text.isBlank]
  have hname : "Sec-WebSocket-Key: ".toList = "Sec-WebSocket-Key".toList ++ [':', ' '] := by
    decide
  refine ⟨"Sec-WebSocket-Key".toList, [' '] ++ key.toList, by decide, ?_,
    by decide, ?_⟩
  · rw [hname, List.append_assoc]
    rfl
  · rw [Text.trim_append_left hspace, Text.trim_of_forall h]
    exact congrArg (·, key.toList) (by decide)

/-- The client's own lines hold the client's own fields. -/
theorem forall₂_clientLines (hkey : ∀ k ∈ key, IsPlain k) :
    List.Forall₂ IsField (clientLines key) (clientFields key) := by
  have hhost : IsField "Host: localhost".toList ("host".toList, "localhost".toList) :=
    isField_iff.mpr ⟨"Host".toList, "localhost".toList, by decide, by decide +kernel⟩
  have hupgrade : IsField "Upgrade: websocket".toList ("upgrade".toList, "websocket".toList) :=
    isField_iff.mpr ⟨"Upgrade".toList, "websocket".toList, by decide, by decide +kernel⟩
  have hconnection : IsField "Connection: Upgrade".toList
      ("connection".toList, "Upgrade".toList) :=
    isField_iff.mpr ⟨"Connection".toList, "Upgrade".toList, by decide, by decide +kernel⟩
  have hversion : IsField "Sec-WebSocket-Version: 13".toList
      ("sec-websocket-version".toList, "13".toList) :=
    isField_iff.mpr
      ⟨"Sec-WebSocket-Version".toList, "13".toList, by decide, by decide +kernel⟩
  cases key with
  | none => exact .cons hhost (.cons hupgrade (.cons hconnection (.cons hversion .nil)))
  | some key =>
    exact .cons hhost (.cons hupgrade (.cons hconnection
      (.cons (isField_key (hkey key rfl)) (.cons hversion .nil))))

/-- The fields of the further lines, none of which is the key or the version. -/
theorem exists_fields (h : ∀ line ∈ extra, IsExtra line) :
    ∃ fields, List.Forall₂ IsField extra fields ∧
      valuesOf fields "sec-websocket-key".toList = [] ∧
      valuesOf fields "sec-websocket-version".toList = [] := by
  induction extra with
  | nil => exact ⟨[], .nil, rfl, rfl⟩
  | cons line extra ih =>
    obtain ⟨hline, hextra⟩ := List.forall_mem_cons.mp h
    obtain ⟨field, hfield, hkey, hversion⟩ := hline.field
    obtain ⟨fields, hfields, hkeys, hversions⟩ := ih hextra
    refine ⟨field :: fields, .cons hfield hfields, ?_, ?_⟩
    · rw [valuesOf_cons_of_ne hkey, hkeys]
    · rw [valuesOf_cons_of_ne hversion, hversions]

theorem lines_upgradeRequest (hkey : ∀ k ∈ key, IsPlain k) (h : ∀ line ∈ extra, IsExtra line) :
    lines (Peer.upgradeRequest key (String.ofList (written extra))).toList =
      "GET /chat HTTP/1.1".toList :: ((clientLines key ++ extra) ++ [] :: [[]]) := by
  have hfree : ∀ line ∈ "GET /chat HTTP/1.1".toList :: (clientLines key ++ extra),
      ¬ lineEnd <:+: line := by
    refine List.forall_mem_cons.mpr ⟨free_of_not_mem (by decide), fun line hmem => ?_⟩
    rcases List.mem_append.mp hmem with hmem | hmem
    · exact free_clientLines hkey line hmem
    · exact (h line hmem).free
  rw [toList_upgradeRequest, lines_written_append hfree]
  rfl

theorem isRequestLine_chat : IsRequestLine "GET /chat HTTP/1.1".toList :=
  ⟨"/chat".toList, by decide, by decide +kernel, rfl⟩

/-- The request has the client's own fields, and then those of the further lines. -/
theorem presents_clientRequest (hkey : ∀ k ∈ key, IsPlain k) (h : ∀ line ∈ extra, IsExtra line)
    (hfields : List.Forall₂ IsField extra fields) :
    Presents (clientRequest key extra) (clientFields key ++ fields) := by
  have hall : List.Forall₂ IsField (clientLines key ++ extra) (clientFields key ++ fields) :=
    List.rel_append (forall₂_clientLines hkey) hfields
  refine (presents_iff (lines_upgradeRequest hkey h)).mpr ⟨isRequestLine_chat, ?_⟩
  rw [takeWhile_append_blank (ne_nil_of_fields hall)]
  exact hall

/-! ## What the server makes of it -/

theorem hasListed_of_mem {name value token : List Char} (hmem : (name, value) ∈ fields)
    (htoken : token ∈ itemsOf value) : HasListed fields name token :=
  hasListed_iff.mpr (List.mem_flatMap.mpr ⟨value, mem_valuesOf.mpr hmem, htoken⟩)

/-- Whatever the further lines list, the client's own fields list what they have to. -/
theorem hasListed_clientRequest (key : Option String) (fields : List Field) :
    HasListed (clientFields key ++ fields) "upgrade".toList "websocket".toList ∧
      HasListed (clientFields key ++ fields) "connection".toList "upgrade".toList :=
  ⟨hasListed_of_mem (.tail _ (.head _)) (by decide),
    hasListed_of_mem (.tail _ (.tail _ (.head _))) (by decide)⟩

/-- The server finds the key that the client wrote, and no other. -/
theorem valuesOf_key (key : Option String)
    (hkeys : valuesOf fields "sec-websocket-key".toList = []) :
    valuesOf (clientFields key ++ fields) "sec-websocket-key".toList =
      (key.map (·.toList)).toList := by
  have hfirst : valuesOf [("host".toList, "localhost".toList),
      ("upgrade".toList, "websocket".toList), ("connection".toList, "Upgrade".toList)]
      "sec-websocket-key".toList = [] := by
    decide
  have hlast : valuesOf [("sec-websocket-version".toList, "13".toList)]
      "sec-websocket-key".toList = [] := by
    decide
  rw [valuesOf_append, clientFields, valuesOf_append, valuesOf_append, hfirst, hlast, hkeys,
    List.append_nil, List.append_nil, List.nil_append]
  cases key with
  | none => rfl
  | some key => exact valuesOf_singleton _ _

theorem valuesOf_version (key : Option String)
    (hversions : valuesOf fields "sec-websocket-version".toList = []) :
    valuesOf (clientFields key ++ fields) "sec-websocket-version".toList = ["13".toList] := by
  have hfirst : valuesOf [("host".toList, "localhost".toList),
      ("upgrade".toList, "websocket".toList), ("connection".toList, "Upgrade".toList)]
      "sec-websocket-version".toList = [] := by
    decide
  have hother : "sec-websocket-key".toList ≠ "sec-websocket-version".toList := by decide
  rw [valuesOf_append, clientFields, valuesOf_append, valuesOf_append, hfirst, hversions,
    List.append_nil, List.nil_append, valuesOf_singleton]
  cases key with
  | none => rfl
  | some key => exact congrArg (· ++ _) (valuesOf_cons_of_ne hother [])

/-- A request that asks for a session in the version that is spoken is let in. -/
theorem Decides.eq_ok {request : Bytes} {result : Except OpeningError String} {key : String}
    {version : Option (List Char)} (h : Decides request result) (hasks : Asks request key version)
    (hspeaks : Speaks version) : result = .ok key := by
  cases h with
  | opens hasks' =>
    obtain ⟨rfl, -⟩ := hasks.unique hasks'
    rfl
  | otherVersion hasks' hother =>
    obtain ⟨-, rfl⟩ := hasks.unique hasks'
    exact absurd hspeaks hother
  | refuses hnone => exact absurd hasks (hnone _ _)

theorem isPlain_keyOf (nonce : Bytes) : IsPlain (keyOf nonce) := by
  intro c hmem
  rw [keyOf, String.toList_ofList] at hmem
  exact Base64.isBlank_of_mem hmem

/-- The key of sixteen octets is accepted. -/
theorem checkRequest_clientRequest {nonce : Bytes} (hnonce : nonce.length = 16)
    (h : ∀ line ∈ extra, IsExtra line) :
    checkRequest (clientRequest (some (keyOf nonce)) extra) = .ok (keyOf nonce) := by
  have hplain : ∀ key ∈ some (keyOf nonce), IsPlain key := by
    rintro _ ⟨⟩
    exact isPlain_keyOf nonce
  obtain ⟨fields, hfields, hkeys, hversions⟩ := exists_fields h
  obtain ⟨hupgrade, hconnection⟩ := hasListed_clientRequest (some (keyOf nonce)) fields
  have hkey : HasKey (clientFields (some (keyOf nonce)) ++ fields) (keyOf nonce) :=
    hasKey_iff.mpr ⟨valuesOf_key _ hkeys, nonce, hnonce, String.toList_ofList⟩
  have hspeaks := speaks_combined_iff.mpr
    (.inr (valuesOf_version (some (keyOf nonce)) hversions))
  have hasks := (presents_clientRequest hplain h hfields).asks_iff.mpr
    ⟨hupgrade, hconnection, hkey, rfl⟩
  exact (decides _).eq_ok hasks hspeaks

theorem readKey_of_none {headers : Headers} (h : Holds headers fields)
    (hnone : valuesOf fields "sec-websocket-key".toList = []) :
    readKey headers = .error (.missingHeader "Sec-WebSocket-Key") := by
  rw [readKey, h.get?_eq, combined_eq_none_iff.mpr hnone]

/-- Without a key the request is refused for want of it, as all checks before that pass. -/
theorem checkRequest_clientRequest_none (h : ∀ line ∈ extra, IsExtra line) :
    checkRequest (clientRequest none extra) = .error (.missingHeader "Sec-WebSocket-Key") := by
  obtain ⟨fields, hfields, hkeys, -⟩ := exists_fields h
  obtain ⟨hupgrade, hconnection⟩ := hasListed_clientRequest none fields
  have hplain : ∀ key ∈ (none : Option String), IsPlain key := nofun
  have hlines := lines_upgradeRequest hplain h
  have hpresents := presents_clientRequest hplain h hfields
  obtain ⟨hfirst, hall⟩ := (presents_iff hlines).mp hpresents
  obtain ⟨held, hheld⟩ := exists_holds (clientFields none ++ fields)
  obtain ⟨_, hline, -⟩ := (checks_requestLine _).exists_ok ⟨(), hfirst⟩
  obtain ⟨headers, hread, more, hmore, hholds⟩ :=
    (checks_readHeaders holds_nil _).exists_ok ⟨held, _, hall, hheld⟩
  obtain rfl := hpresents.unique ((presents_iff hlines).mpr ⟨hfirst, hmore⟩)
  obtain ⟨_, hup, -⟩ := (checks_listed hholds "Upgrade" "websocket").exists_ok ⟨(), hupgrade⟩
  obtain ⟨_, hcon, -⟩ := (checks_listed hholds "Connection" "upgrade").exists_ok ⟨(), hconnection⟩
  have hmissing := readKey_of_none hholds (valuesOf_key none hkeys)
  rw [clientRequest, checkRequest_of_lines hlines, checkLines, hline, hread]
  simp only [bind, Except.bind, hup, hcon, hmissing]

/-! ## What the client makes of the reply -/

/-- The line that proves to a client that its key was read. -/
def proofLine (key : String) : List Char := ("Sec-WebSocket-Accept: " ++ acceptKey key).toList

theorem free_proofLine (key : String) : ¬ lineEnd <:+: proofLine key := by
  apply free_of_not_mem
  rw [proofLine, String.toList_append, List.mem_append, not_or]
  refine ⟨by decide, fun hmem => ?_⟩
  rw [acceptKey, String.toList_ofList] at hmem
  exact absurd (Base64.isBlank_of_mem hmem) (by decide)

theorem proofLine_eq (key : String) :
    proofLine key = "Sec-WebSocket-Accept: ".toList ++ (acceptKey key).toList :=
  String.toList_append ..

/-- The reply that opens a session is written line by line. -/
theorem toList_acceptance (key : String) : (acceptance key).toList =
    written ["HTTP/1.1 101 Switching Protocols".toList, "Upgrade: websocket".toList,
      "Connection: Upgrade".toList, proofLine key] ++ lineEnd := by
  have hsplit : acceptance key = acceptanceStart ++ acceptKey key ++ "\r\n\r\n" := rfl
  have hstart : acceptanceStart.toList =
      written ["HTTP/1.1 101 Switching Protocols".toList, "Upgrade: websocket".toList,
        "Connection: Upgrade".toList] ++ "Sec-WebSocket-Accept: ".toList := by
    decide
  have hend : "\r\n\r\n".toList = lineEnd ++ lineEnd := rfl
  have hproof : proofLine key ++ lineEnd = written [proofLine key] := (List.append_nil _).symm
  rw [hsplit, String.toList_append, String.toList_append, hstart, hend,
    List.append_assoc (written _), ← proofLine_eq, ← List.append_assoc,
    List.append_assoc (written _), hproof, ← written_append]
  rfl

theorem proofLine_mem_lines (key : String) : proofLine key ∈ lines (acceptance key).toList := by
  have hfixed : ∀ line ∈ ["HTTP/1.1 101 Switching Protocols".toList, "Upgrade: websocket".toList,
      "Connection: Upgrade".toList], '\r' ∉ line := by
    decide
  have hfree : ∀ line ∈ ["HTTP/1.1 101 Switching Protocols".toList, "Upgrade: websocket".toList,
      "Connection: Upgrade".toList] ++ [proofLine key], ¬ lineEnd <:+: line := by
    intro line hmem
    rcases List.mem_append.mp hmem with hmem | hmem
    · exact free_of_not_mem (hfixed line hmem)
    · rw [List.mem_singleton.mp hmem]
      exact free_proofLine key
  rw [toList_acceptance]
  have hlines := lines_written_append hfree lineEnd
  exact hlines ▸ List.mem_append_left _ (List.mem_append_right _ (List.mem_singleton_self _))

theorem status_isPrefix (key : String) : "HTTP/1.1 101 ".toList <+: (acceptance key).toList := by
  have hstart : "HTTP/1.1 101 ".toList <+: acceptanceStart.toList := by decide
  have hsplit : acceptance key = acceptanceStart ++ (acceptKey key ++ "\r\n\r\n") :=
    String.append_assoc ..
  rw [hsplit, String.toList_append]
  exact hstart.trans (List.prefix_append ..)

theorem occursIn_iff {part text : List Char} :
    Peer.Client.occursIn part text = true ↔ part <:+: text := by
  induction text with
  | nil => simp [Peer.Client.occursIn]
  | cons c text ih =>
    rw [Peer.Client.occursIn, Bool.or_eq_true, ih, List.isPrefixOf_iff_prefix, List.infix_cons_iff]

theorem infix_written {part : List Char} {parts : List (List Char)} (h : part ∈ parts) :
    part ++ lineEnd <:+: written parts := by
  obtain ⟨before, after, rfl⟩ := List.append_of_mem h
  refine ⟨written before, written after, ?_⟩
  rw [written_append, written_cons, List.append_assoc]

/-- A client takes the acceptance of its key for that. -/
theorem checkReply_acceptance (key : String) :
    Peer.Client.checkReply key (acceptance key) = .ok () := by
  have hstatus : "HTTP/1.1 101 ".toList.isPrefixOf (acceptance key).toList = true :=
    List.isPrefixOf_iff_prefix.mpr (status_isPrefix key)
  have hproof : ("Sec-WebSocket-Accept: " ++ acceptKey key ++ "\r\n").toList =
      proofLine key ++ lineEnd :=
    String.toList_append ..
  have hoccurs : Peer.Client.occursIn ("Sec-WebSocket-Accept: " ++ acceptKey key ++ "\r\n").toList
      (acceptance key).toList = true := by
    rw [occursIn_iff, hproof, toList_acceptance]
    have hwithin := infix_written (List.mem_append_right ["HTTP/1.1 101 Switching Protocols".toList,
      "Upgrade: websocket".toList, "Connection: Upgrade".toList]
      (List.mem_singleton_self (proofLine key)))
    exact hwithin.trans (List.prefix_append ..).isInfix
  simp only [Peer.Client.checkReply, hstatus, hoccurs]
  rfl

/-! ## Agreement -/

/-- What comes of a request with a key that is to be accepted, and how the client sees it. -/
structure Agreed (key : String) (negotiation : Negotiation) : Prop where
  accepted : negotiation.outcome = .ok ()
  status : "HTTP/1.1 101 ".toList <+: negotiation.reply.toStringRepaired.toList
  proves : ("Sec-WebSocket-Accept: " ++ acceptKey key).toList ∈
    lines negotiation.reply.toStringRepaired.toList
  checked : Peer.Client.checkReply key negotiation.reply.toStringRepaired = .ok ()

/-- A client that adds some header lines to its request and a server agree. -/
structure Agree (extra : List (List Char)) : Prop where
  /-- The server accepts the key of any sixteen octets, and the client sees that it did. -/
  opens : ∀ nonce : Bytes, nonce.length = 16 →
    Agreed (keyOf nonce) (negotiate (clientRequest (some (keyOf nonce)) extra))
  /-- Without a key the request is bad. -/
  refuses : (negotiate (clientRequest none extra)).outcome =
      .error (.missingHeader "Sec-WebSocket-Key") ∧
    (negotiate (clientRequest none extra)).reply = Bytes.ofString badRequestReply

theorem client_server_agree (extra : List (List Char)) (h : ∀ line ∈ extra, IsExtra line) :
    Agree extra where
  opens nonce hnonce := by
    have hreply : (Bytes.ofString (acceptance (keyOf nonce))).toStringRepaired =
        acceptance (keyOf nonce) :=
      Bytes.toStringRepaired_ofString (isAscii_acceptance (keyOf nonce))
    rw [negotiate, checkRequest_clientRequest hnonce h]
    refine ⟨rfl, ?_, ?_, ?_⟩
    · dsimp only
      rw [hreply]
      exact status_isPrefix _
    · dsimp only
      rw [hreply]
      exact proofLine_mem_lines _
    · dsimp only
      rw [hreply]
      exact checkReply_acceptance _
  refuses := by
    rw [negotiate, checkRequest_clientRequest_none h]
    exact ⟨rfl, rfl⟩

/-- Lists under `Upgrade` and `Connection` that name other protocols, and a header of no use. -/
theorem client_server_agree_lists :
    let extra := ["Upgrade: h2c, other".toList, "connection\t: close".toList, "x:".toList]
    let key := keyOf (List.replicate 16 7)
    (∀ line ∈ extra, IsExtra line) ∧
      (negotiate (clientRequest (some key) extra)).outcome = .ok () ∧
      (negotiate (clientRequest none extra)).outcome =
        .error (.missingHeader "Sec-WebSocket-Key") := by
  intro extra key
  have hline (line : List Char) (name value : List Char) (hfree : ¬ lineEnd <:+: line)
      (hline : headerLine? line = some (name, value))
      (hname : lower name ≠ "sec-websocket-key".toList ∧
        lower name ≠ "sec-websocket-version".toList) : IsExtra line :=
    ⟨hfree, (lower name, value), isField_iff.mpr ⟨name, value, hline, rfl⟩, hname⟩
  have hextra : ∀ line ∈ extra, IsExtra line := by
    refine List.forall_mem_cons.mpr ⟨?_, List.forall_mem_cons.mpr ⟨?_, List.forall_mem_cons.mpr
      ⟨?_, nofun⟩⟩⟩
    · exact hline _ "Upgrade".toList "h2c, other".toList (by decide) (by decide +kernel)
        (by decide)
    · exact hline _ "connection".toList "close".toList (by decide) (by decide +kernel)
        (by decide)
    · exact hline _ "x".toList [] (by decide) (by decide +kernel) (by decide +kernel)
  have hagree := client_server_agree extra hextra
  exact ⟨hextra, (hagree.opens (List.replicate 16 7) rfl).accepted, hagree.refuses.1⟩

end Opening

end WebSocket
