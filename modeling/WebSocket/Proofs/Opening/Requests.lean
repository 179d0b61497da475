import Mathlib.Data.List.Forall2
import Mathlib.Data.List.TakeWhile
import WebSocket.Opening.Negotiation
import WebSocket.Proofs.Opening.Cutting

/-!
# What asks for a session

A request asks for a session if it is written as the grammar of requests has it (`Asks`), and one
that does is let in if it speaks the right version or does not say which it speaks (`Speaks`).  The
negotiation accepts these requests and no others, and every other request gets the refusal that
is due (`negotiate_decides`).

Each of the checks is shown to come to what the grammar says of its part of the request (`Checks`).
-/

namespace WebSocket.Opening

/-! ## The grammar -/

abbrev Field := List Char × List Char

/-- The first line of a request, with a target. -/
def IsRequestLine (line : List Char) : Prop :=
  ∃ target, target ≠ [] ∧ ' ' ∉ target ∧
    line = "GET ".toList ++ target ++ " HTTP/1.1".toList

/-- A header line: a name that is not blank, the first colon, and the value. -/
def IsField (line : List Char) (field : Field) : Prop :=
  ∃ name value, ':' ∉ name ∧ line = name ++ ':' :: value ∧ Text.trim name ≠ [] ∧
    field = (lower (Text.trim name), Text.trim value)

/-- The fields of a request: those of the lines after the first, up to an empty one. -/
def Presents (request : Bytes) (fields : List Field) : Prop :=
  ∃ text requestLine later, request = Bytes.ofString text ∧
    Parts lineEnd text.toList (requestLine :: later) ∧ IsRequestLine requestLine ∧
    List.Forall₂ IsField (later.takeWhile fun line => !line.isEmpty) fields

def valuesOf (fields : List Field) (name : List Char) : List (List Char) :=
  (fields.filter fun field => field.1 = name).map Prod.snd

/-- The joined values of the fields with a name; nothing if there is no such field. -/
def combined (fields : List Field) (name : List Char) : Option (List Char) :=
  match valuesOf fields name with
  | [] => none
  | values => some (", ".toList.intercalate values)

/-- A list of items, set apart by commas, has a token among them. -/
def Lists (value token : List Char) : Prop :=
  ∃ items, Parts [','] value items ∧ ∃ item ∈ items, lower (Text.trim item) = token

def HasListed (fields : List Field) (name token : List Char) : Prop :=
  ∃ value, combined fields name = some value ∧ Lists value token

/-- The client's key, which encodes sixteen octets. -/
def HasKey (fields : List Field) (key : String) : Prop :=
  combined fields "sec-websocket-key".toList = some key.toList ∧
    ∃ nonce : Bytes, nonce.length = 16 ∧ key.toList = Base64.encode nonce

/-- A request asks for a session with a key and perhaps in a version. -/
def Asks (request : Bytes) (key : String) (version : Option (List Char)) : Prop :=
  ∃ fields, Presents request fields ∧
    HasListed fields "upgrade".toList "websocket".toList ∧
    HasListed fields "connection".toList "upgrade".toList ∧
    HasKey fields key ∧
    version = combined fields "sec-websocket-version".toList

/-- The version is the one that is spoken, or is left open. -/
def Speaks (version : Option (List Char)) : Prop := version = none ∨ version = some "13".toList

/-- The refusal of a request that asks for a session in another version. -/
def otherVersionReply : String :=
  "HTTP/1.1 426 Upgrade Required\r\nSec-WebSocket-Version: 13\r\nConnection: close\r\n"
    ++ "Content-Length: 0\r\n\r\n"

def badRequestReply : String :=
  "HTTP/1.1 400 Bad Request\r\nConnection: close\r\nContent-Length: 0\r\n\r\n"

variable {line requestLine : List Char} {later : List (List Char)} {fields fields' : List Field}
  {field field' : Field} {name value : List Char} {headers : Headers} {key key' : String}
  {version version' : Option (List Char)} {text : String} {request : Bytes}

/-! ## Checks -/

/-- A check comes to a result with a property, or to a refusal if nothing has the property. -/
inductive Checks {α : Type} (p : α → Prop) : Except OpeningError α → Prop
  | passes {a : α} : p a → Checks p (.ok a)
  | refuses {error : OpeningError} : (∀ a, ¬ p a) → error.reply = badRequestReply →
      Checks p (.error error)

theorem Checks.congr {α : Type} {p q : α → Prop} {result : Except OpeningError α}
    (hpq : ∀ a, p a ↔ q a) (h : Checks p result) : Checks q result := by
  cases h with
  | passes hp => exact .passes ((hpq _).mp hp)
  | refuses hnone hreply => exact .refuses (fun a hq => hnone a ((hpq a).mpr hq)) hreply

theorem Checks.exists_ok {α : Type} {p : α → Prop} {result : Except OpeningError α}
    (h : Checks p result) (hex : ∃ a, p a) : ∃ a, result = .ok a ∧ p a := by
  cases h with
  | passes hp => exact ⟨_, rfl, hp⟩
  | refuses hnone =>
    obtain ⟨a, hp⟩ := hex
    exact absurd hp (hnone a)

/-! ## The first line -/

theorem pieces_requestLine {target : List Char} (h : ' ' ∉ target) :
    pieces ' ' ("GET ".toList ++ target ++ " HTTP/1.1".toList)
      = ["GET".toList, target, "HTTP/1.1".toList] := by
  rw [← parts_iff_pieces]
  refine ⟨by simp [List.intercalate], by nofun, ?_⟩
  intro part hmem
  rw [List.singleton_infix_iff]
  simp only [List.mem_cons, List.not_mem_nil, or_false] at hmem
  rcases hmem with rfl | rfl | rfl
  · decide
  · exact h
  · decide

theorem isRequestLine_iff : IsRequestLine line ↔
    ∃ target, target ≠ [] ∧ pieces ' ' line = ["GET".toList, target, "HTTP/1.1".toList] := by
  constructor
  · rintro ⟨target, hne, hfree, rfl⟩
    exact ⟨target, hne, pieces_requestLine hfree⟩
  · rintro ⟨target, hne, hpieces⟩
    have hparts := parts_iff_pieces.mpr hpieces
    refine ⟨target, hne, ?_, ?_⟩
    · rw [← List.singleton_infix_iff]
      exact hparts.free target (by simp)
    · rw [← hparts.joined]
      simp [List.intercalate]

theorem checks_requestLine (line : List Char) :
    Checks (fun _ => IsRequestLine line) (checkRequestLine line) := by
  simp only [isRequestLine_iff]
  unfold checkRequestLine
  split
  · rename_i method target version hpieces
    simp only [hpieces, List.cons.injEq, and_true]
    split
    · rename_i hempty
      refine .refuses ?_ rfl
      rintro _ ⟨t, hne, -, rfl, -⟩
      exact hne (List.isEmpty_iff.mp hempty)
    · rename_i hne
      split
      · rename_i hmethod
        exact .refuses (fun _ ⟨_, _, h, _⟩ => hmethod h) rfl
      · rename_i hmethod
        split
        · rename_i hversion
          exact .refuses (fun _ ⟨_, _, _, _, h⟩ => hversion h) rfl
        · rename_i hversion
          refine .passes ⟨target, ?_, not_not.mp hmethod, rfl, not_not.mp hversion⟩
          rwa [List.isEmpty_iff] at hne
  · rename_i hother
    exact .refuses (fun _ ⟨target, _, hpieces⟩ => hother _ _ _ hpieces) rfl

/-! ## The headers -/

theorem headerLine?_append (h : ':' ∉ name) (value : List Char) :
    headerLine? (name ++ ':' :: value) =
      if (Text.trim name).isEmpty then none else some (Text.trim name, Text.trim value) := by
  have hall : ∀ c ∈ name, (c != ':') = true := by
    intro c hc
    simpa using fun heq : c = ':' => h (heq ▸ hc)
  unfold headerLine?
  rw [List.dropWhile_append_of_pos hall, List.takeWhile_append_of_pos hall]
  simp

theorem headerLine?_of_not_mem (h : ':' ∉ line) : headerLine? line = none := by
  have hall : ∀ c ∈ line, (c != ':') = true := by
    intro c hc
    simpa using fun heq : c = ':' => h (heq ▸ hc)
  unfold headerLine?
  rw [List.dropWhile_eq_nil_iff.mpr hall]

/-- A line is a header line with one field if the reader of header lines takes it for that. -/
theorem isField_iff : IsField line field ↔
    ∃ name value, headerLine? line = some (name, value) ∧ field = (lower name, value) := by
  constructor
  · rintro ⟨name, value, hfree, rfl, hne, rfl⟩
    refine ⟨Text.trim name, Text.trim value, ?_, rfl⟩
    rw [headerLine?_append hfree, if_neg (by rwa [List.isEmpty_iff])]
  · rintro ⟨name, value, hline, rfl⟩
    by_cases hcolon : ':' ∈ line
    · obtain ⟨rawName, rawValue, rfl, hfree⟩ := List.eq_append_cons_of_mem hcolon
      rw [headerLine?_append hfree] at hline
      split at hline
      · cases hline
      · rename_i hne
        obtain ⟨rfl, rfl⟩ := Prod.mk.inj (Option.some.inj hline)
        exact ⟨rawName, rawValue, hfree, rfl, by rwa [List.isEmpty_iff] at hne, rfl⟩
    · rw [headerLine?_of_not_mem hcolon] at hline
      cases hline

theorem isField_of_headerLine? (h : headerLine? line = some (name, value)) :
    IsField line (lower name, value) :=
  isField_iff.mpr ⟨name, value, h, rfl⟩

theorem IsField.unique (h : IsField line field) (h' : IsField line field') : field = field' := by
  obtain ⟨name, value, hline, rfl⟩ := isField_iff.mp h
  obtain ⟨name', value', hline', rfl⟩ := isField_iff.mp h'
  obtain ⟨rfl, rfl⟩ := Prod.mk.inj (Option.some.inj (hline.symm.trans hline'))
  rfl

/-- Lines have the fields of one list only. -/
theorem fields_unique {parts : List (List Char)} (h : List.Forall₂ IsField parts fields)
    (h' : List.Forall₂ IsField parts fields') : fields = fields' := by
  have hunique : Relator.RightUnique IsField := fun _ _ _ => IsField.unique
  exact hunique.forall₂ h h'

theorem ne_nil_of_fields {parts : List (List Char)} (h : List.Forall₂ IsField parts fields) :
    ∀ line ∈ parts, line ≠ [] := by
  induction h with
  | nil => nofun
  | cons hline _ ih =>
    refine List.forall_mem_cons.mpr ⟨?_, ih⟩
    obtain ⟨name, value, -, rfl, -, -⟩ := hline
    simp

/-- The values that are kept under a name, the latest first. -/
def Holds (headers : Headers) (fields : List Field) : Prop :=
  ∀ name, headers.lookup name =
    if valuesOf fields name = [] then none else some (valuesOf fields name).reverse

theorem valuesOf_append (fields fields' : List Field) (name : List Char) :
    valuesOf (fields ++ fields') name = valuesOf fields name ++ valuesOf fields' name := by
  simp [valuesOf]

theorem mem_valuesOf :
    value ∈ valuesOf fields name ↔ (name, value) ∈ fields := by
  simp [valuesOf]

theorem valuesOf_eq_nil_iff :
    valuesOf fields name = [] ↔ ∀ field ∈ fields, field.1 ≠ name := by
  simp [valuesOf]

theorem valuesOf_cons_of_ne {field : Field} {name : List Char} (h : field.1 ≠ name)
    (fields : List Field) : valuesOf (field :: fields) name = valuesOf fields name := by
  simp [valuesOf, h]

theorem valuesOf_singleton (name value : List Char) : valuesOf [(name, value)] name = [value] := by
  simp [valuesOf]

theorem lookup_insert (headers : Headers) (name value n : List Char) :
    (headers.insert name value).lookup n =
      if n = name then some (value :: (headers.lookup name).getD []) else headers.lookup n := by
  induction headers with
  | nil =>
    by_cases hn : n = name
    · simp [Headers.insert, hn]
    · simp [Headers.insert, List.lookup_cons, hn, beq_eq_false_iff_ne.mpr hn]
  | cons entry later ih =>
    obtain ⟨m, values⟩ := entry
    rw [Headers.insert]
    by_cases hm : m = name
    · subst hm
      by_cases hn : n = m
      · simp [hn]
      · simp [List.lookup_cons, hn, beq_eq_false_iff_ne.mpr hn]
    · have hname := beq_eq_false_iff_ne.mpr (Ne.symm hm)
      by_cases hn : n = m
      · subst hn
        simp [hm]
      · simp [hm, List.lookup_cons, hname, beq_eq_false_iff_ne.mpr hn, ih]

theorem Holds.insert (h : Holds headers fields) (name value : List Char) :
    Holds (headers.insert name value) (fields ++ [(name, value)]) := by
  intro n
  rw [lookup_insert, valuesOf_append, h n, h name]
  by_cases hn : n = name
  · subst hn
    have hlast := valuesOf_singleton n value
    by_cases hnone : valuesOf fields n = [] <;> simp [hnone, hlast]
  · have hlast : valuesOf [(name, value)] n = [] := valuesOf_cons_of_ne (Ne.symm hn) []
    simp [hn, hlast]

theorem holds_nil : Holds [] [] := fun _ => rfl

theorem exists_holds (fields : List Field) : ∃ headers, Holds headers fields := by
  induction fields using List.reverseRecOn with
  | nil => exact ⟨[], holds_nil⟩
  | append_singleton fields field ih =>
    obtain ⟨headers, h⟩ := ih
    exact ⟨_, h.insert field.1 field.2⟩

theorem Holds.get?_eq (h : Holds headers fields) (name : String) :
    headers.get? name = combined fields name.toList := by
  rw [Headers.get?, h, combined]
  cases valuesOf fields name.toList with
  | nil => rfl
  | cons first later => simp

/-- The headers that are read hold the fields of the lines up to an empty one, after those that were
there before. -/
theorem checks_readHeaders (h : Holds headers fields) (lines : List (List Char)) :
    Checks (fun headers' => ∃ more,
      List.Forall₂ IsField (lines.takeWhile fun line => !line.isEmpty) more ∧
        Holds headers' (fields ++ more)) (readHeaders headers lines) := by
  fun_induction readHeaders headers lines generalizing fields with
  | case1 headers => exact .passes ⟨[], .nil, by rwa [List.append_nil]⟩
  | case2 headers later => exact .passes ⟨[], .nil, by rwa [List.append_nil]⟩
  | case3 headers line later hne hline =>
    refine .refuses ?_ rfl
    rintro headers' ⟨more, hmore, -⟩
    rw [List.takeWhile_cons_of_pos (by simpa using hne)] at hmore
    obtain ⟨field, _, hfield, -⟩ := List.forall₂_cons_left_iff.mp hmore
    obtain ⟨name, value, hsome, -⟩ := isField_iff.mp hfield
    rw [hline] at hsome
    cases hsome
  | case4 headers line later hne name value hline ih =>
    have hfield := isField_of_headerLine? hline
    rw [List.takeWhile_cons_of_pos (by simpa using hne)]
    refine (ih (h.insert (lower name) value)).congr fun headers' => ?_
    constructor
    · rintro ⟨more, hmore, hholds⟩
      exact ⟨_ :: more, .cons hfield hmore, by rwa [List.append_assoc] at hholds⟩
    · rintro ⟨_, hmore, hholds⟩
      obtain ⟨field, more, hfield', hmore', rfl⟩ := List.forall₂_cons_left_iff.mp hmore
      obtain rfl := hfield.unique hfield'
      exact ⟨more, hmore', by rwa [List.append_assoc]⟩

/-! ## Lists, the key and the version -/

theorem hasToken_iff {token : String} :
    hasToken value token = true ↔ Lists value (lower token.toList) := by
  unfold hasToken Lists
  simp only [parts_iff_pieces, exists_eq_left', List.any_eq_true, beq_iff_eq]

theorem checks_listed (h : Holds headers fields) (name token : String) :
    Checks (fun _ => HasListed fields (lower name.toList) (lower token.toList))
      (checkListed headers name token) := by
  unfold checkListed HasListed
  rw [h.get?_eq, String.toList_ofList]
  cases combined fields (lower name.toList) with
  | none => exact .refuses (fun _ ⟨_, h, _⟩ => nomatch h) rfl
  | some value =>
    dsimp only
    simp only [← hasToken_iff, Option.some.injEq, exists_eq_left']
    split
    · exact .passes (by assumption)
    · exact .refuses (fun _ => by assumption) rfl

theorem checks_key (h : Holds headers fields) : Checks (HasKey fields) (readKey headers) := by
  unfold readKey HasKey
  rw [h.get?_eq]
  cases combined fields "sec-websocket-key".toList with
  | none => exact .refuses (fun _ ⟨h, _⟩ => nomatch h) rfl
  | some key =>
    dsimp only
    split
    · rename_i hsixteen
      obtain ⟨nonce, hnonce, hlength⟩ := (Option.any_eq_true ..).mp hsixteen
      refine .passes ⟨by rw [String.toList_ofList], nonce, by simpa using hlength, ?_⟩
      rw [String.toList_ofList]
      exact Base64.decode_eq_some_iff.mp hnonce
    · rename_i hother
      refine .refuses ?_ rfl
      rintro key' ⟨hkey, nonce, hlength, hencodes⟩
      obtain rfl := Option.some.inj hkey
      refine hother ((Option.any_eq_true ..).mpr ⟨nonce, ?_, by simpa using hlength⟩)
      exact Base64.decode_eq_some_iff.mpr hencodes

/-! ## Requests -/

theorem presents_iff (hlines : lines text.toList = requestLine :: later) :
    Presents (Bytes.ofString text) fields ↔ IsRequestLine requestLine ∧
      List.Forall₂ IsField (later.takeWhile fun line => !line.isEmpty) fields := by
  constructor
  · rintro ⟨text', requestLine', later', hsame, hparts, hfirst, hfields⟩
    have hread := Bytes.toString?_eq_some_iff.mpr hsame
    rw [Bytes.toString?_ofString] at hread
    obtain rfl := Option.some.inj hread
    rw [parts_iff_lines, hlines] at hparts
    obtain ⟨rfl, rfl⟩ := List.cons.inj hparts
    exact ⟨hfirst, hfields⟩
  · rintro ⟨hfirst, hfields⟩
    exact ⟨text, requestLine, later, rfl, parts_iff_lines.mpr hlines, hfirst, hfields⟩

theorem Presents.unique (h : Presents request fields) (h' : Presents request fields') :
    fields = fields' := by
  obtain ⟨text, requestLine, later, rfl, hparts, -, hfields⟩ := h
  exact fields_unique hfields ((presents_iff (parts_iff_lines.mp hparts)).mp h').2

theorem Asks.unique (h : Asks request key version) (h' : Asks request key' version') :
    key = key' ∧ version = version' := by
  obtain ⟨fields, hpresents, -, -, ⟨hkey, -⟩, rfl⟩ := h
  obtain ⟨fields', hpresents', -, -, ⟨hkey', -⟩, rfl⟩ := h'
  obtain rfl := hpresents.unique hpresents'
  rw [hkey] at hkey'
  exact ⟨String.toList_injective (Option.some.inj hkey'), rfl⟩

/-- What the check of a request comes to. -/
inductive Decides (request : Bytes) : Except OpeningError String → Prop
  | opens {key : String} {version : Option (List Char)} : Asks request key version →
      Speaks version → Decides request (.ok key)
  | otherVersion {key : String} {version : Option (List Char)} {error : OpeningError} :
      Asks request key version → ¬ Speaks version → error.reply = otherVersionReply →
      Decides request (.error error)
  | refuses {error : OpeningError} : (∀ key version, ¬ Asks request key version) →
      error.reply = badRequestReply → Decides request (.error error)

/-- Once the lines have been read, what a request asks for is settled by its fields. -/
theorem Presents.asks_iff (h : Presents request fields) : Asks request key version ↔
    HasListed fields "upgrade".toList "websocket".toList ∧
      HasListed fields "connection".toList "upgrade".toList ∧ HasKey fields key ∧
      version = combined fields "sec-websocket-version".toList := by
  constructor
  · rintro ⟨fields', h', hasks⟩
    rwa [h.unique h']
  · intro hasks
    exact ⟨fields, h, hasks⟩

theorem Decides.bind {α : Type} {p : α → Prop} {check : Except OpeningError α}
    {next : α → Except OpeningError String} (h : Checks p check)
    (hneeded : ∀ key version, Asks request key version → ∃ a, p a)
    (hnext : ∀ a, p a → Decides request (next a)) : Decides request (check >>= next) := by
  cases h with
  | passes hp => exact hnext _ hp
  | refuses hnone hreply =>
    refine .refuses (fun key version hasks => ?_) hreply
    obtain ⟨a, hp⟩ := hneeded key version hasks
    exact hnone a hp

theorem decides_checkVersion (h : Holds headers fields)
    (hasks : Asks request key (combined fields "sec-websocket-version".toList)) :
    Decides request (checkVersion headers >>= fun _ => .ok key) := by
  unfold checkVersion
  rw [h.get?_eq]
  cases hversion : combined fields "sec-websocket-version".toList with
  | none => exact .opens hasks (.inl hversion)
  | some version =>
    dsimp only
    split
    · rename_i hspoken
      exact .opens hasks (.inr (hversion.trans (congrArg some hspoken)))
    · rename_i hother
      refine .otherVersion hasks ?_ rfl
      rw [hversion]
      rintro (hnone | hspoken)
      · cases hnone
      · exact hother (Option.some.inj hspoken)

/-- Each check stands for a part of the grammar, in the order of the checks. -/
theorem decides_checkLines (hlines : lines text.toList = requestLine :: later) :
    Decides (Bytes.ofString text) (checkLines requestLine later) := by
  unfold checkLines
  refine .bind (checks_requestLine requestLine) ?_ fun _ hfirst => ?_
  · rintro key version ⟨fields, hpresents, -⟩
    exact ⟨(), ((presents_iff hlines).mp hpresents).1⟩
  refine .bind (checks_readHeaders holds_nil later) ?_ ?_
  · rintro key version ⟨fields, hpresents, -⟩
    obtain ⟨headers, hholds⟩ := exists_holds fields
    exact ⟨headers, fields, ((presents_iff hlines).mp hpresents).2, hholds⟩
  rintro headers ⟨fields, hfields, hholds⟩
  have hpresents := (presents_iff hlines).mpr ⟨hfirst, hfields⟩
  refine .bind (checks_listed hholds "Upgrade" "websocket") ?_ fun _ hupgrade => ?_
  · exact fun key version hasks => ⟨(), (hpresents.asks_iff.mp hasks).1⟩
  refine .bind (checks_listed hholds "Connection" "upgrade") ?_ fun _ hconnection => ?_
  · exact fun key version hasks => ⟨(), (hpresents.asks_iff.mp hasks).2.1⟩
  refine .bind (checks_key hholds) ?_ fun key hkey => ?_
  · exact fun key version hasks => ⟨key, (hpresents.asks_iff.mp hasks).2.2.1⟩
  exact decides_checkVersion hholds (hpresents.asks_iff.mpr ⟨hupgrade, hconnection, hkey, rfl⟩)

/-- A header in two lines, of which the second lists the token, and letters in either case. -/
example : checkLines "GET /chat HTTP/1.1".toList
    ["upgrade:WebSocket".toList, "Connection: keep-alive".toList, "CONNECTION :\tupgrade".toList,
      "Sec-WebSocket-Key: dGhlIHNhbXBsZSBub25jZQ==".toList, [], "no header".toList]
      = .ok "dGhlIHNhbXBsZSBub25jZQ==" := by
  decide +kernel

theorem decides (request : Bytes) : Decides request (checkRequest request) := by
  unfold checkRequest
  cases htext : request.toString? with
  | none =>
    refine .refuses ?_ rfl
    rintro key version ⟨fields, ⟨text, _, _, rfl, -⟩, -⟩
    rw [Bytes.toString?_ofString] at htext
    cases htext
  | some text =>
    obtain rfl := Bytes.toString?_eq_some_iff.mp htext
    obtain ⟨requestLine, later, hlines⟩ := List.exists_cons_of_ne_nil (lines_ne_nil text.toList)
    simp only [hlines]
    exact decides_checkLines hlines

/-- A request is let in exactly if it asks for a session in the version that is spoken or in none, and
then it gets the acceptance of its key; one that asks for another version is told so, and every
other one that it is bad. -/
theorem negotiate_decides (request : Bytes) :
    ((negotiate request).isAccepted = true ↔
      ∃ key version, Asks request key version ∧ Speaks version) ∧
    (∀ key version, Asks request key version → Speaks version →
      (negotiate request).reply = Bytes.ofString (acceptance key)) ∧
    (∀ key version, Asks request key version → ¬ Speaks version →
      (negotiate request).reply = Bytes.ofString otherVersionReply) ∧
    ((∀ key version, ¬ Asks request key version) →
      (negotiate request).reply = Bytes.ofString badRequestReply) := by
  unfold negotiate
  have hdecides := decides request
  generalize checkRequest request = result at hdecides ⊢
  cases hdecides with
  | @opens key version hasks hspeaks =>
    refine ⟨⟨fun _ => ⟨key, version, hasks, hspeaks⟩, fun _ => rfl⟩, ?_, ?_, ?_⟩
    · intro key' version' hasks' _
      rw [(hasks.unique hasks').1]
    · intro key' version' hasks' hother
      obtain ⟨-, rfl⟩ := hasks.unique hasks'
      exact absurd hspeaks hother
    · intro hnone
      exact absurd hasks (hnone key version)
  | @otherVersion key version error hasks hother hreply =>
    refine ⟨⟨nofun, ?_⟩, ?_, ?_, ?_⟩
    · rintro ⟨key', version', hasks', hspeaks⟩
      obtain ⟨-, rfl⟩ := hasks.unique hasks'
      exact absurd hspeaks hother
    · intro key' version' hasks' hspeaks
      obtain ⟨-, rfl⟩ := hasks.unique hasks'
      exact absurd hspeaks hother
    · intro _ _ _ _
      exact congrArg Bytes.ofString hreply
    · intro hnone
      exact absurd hasks (hnone key version)
  | @refuses error hnone hreply =>
    refine ⟨⟨nofun, ?_⟩, ?_, ?_, ?_⟩
    · rintro ⟨key, version, hasks, -⟩
      exact absurd hasks (hnone key version)
    · intro key version hasks _
      exact absurd hasks (hnone key version)
    · intro key version hasks _
      exact absurd hasks (hnone key version)
    · intro _
      exact congrArg Bytes.ofString hreply

end WebSocket.Opening
