import Mathlib.Data.List.Perm.Basic
import WebSocket.Proofs.Opening.Requests

/-!
# What the order and the grouping of fields leave the same

A request is judged by the items that its `Upgrade` and `Connection` fields list, in whatever fields
they stand, and by the values of each other field, in whatever order.  Requests whose fields are
alike in this (`Alike`) are judged alike: the items of joined values are those of the values
(`itemsOf_intercalate`), and of the values of the other fields none counts unless it is the only one
(`combined_eq_some_iff`).
-/

namespace WebSocket

/-! ## Blanks -/

namespace Text

variable {p s t text : List Char}

def Blank (text : List Char) : Prop := ∀ c ∈ text, isBlank c = true

theorem trim_append_left (hp : Blank p) (t : List Char) : trim (p ++ t) = trim t := by
  rw [trim, List.dropWhile_append_of_pos hp, trim]

theorem trim_append_right (hs : Blank s) (t : List Char) : trim (t ++ s) = trim t := by
  have hreverse : ∀ c ∈ s.reverse, isBlank c = true := fun c hc => hs c (List.mem_reverse.mp hc)
  rw [trim, trim, List.dropWhile_append]
  split
  · rename_i hempty
    rw [List.isEmpty_iff.mp hempty, List.dropWhile_eq_nil_iff.mpr hs]
  · rw [List.reverse_append, List.dropWhile_append_of_pos hreverse]

theorem trim_padded (hp : Blank p) (hs : Blank s) (t : List Char) : trim (p ++ t ++ s) = trim t := by
  rw [trim_append_right hs, trim_append_left hp]

/-- A text is what is left of it between blanks. -/
theorem exists_trim (text : List Char) : ∃ p s, Blank p ∧ Blank s ∧ text = p ++ trim text ++ s := by
  refine ⟨text.takeWhile isBlank, ((text.dropWhile isBlank).reverse.takeWhile isBlank).reverse,
    fun c => List.mem_takeWhile_imp, fun c hc => ?_, ?_⟩
  · exact List.mem_takeWhile_imp (List.mem_reverse.mp hc)
  · rw [trim, List.append_assoc, ← List.reverse_append, List.takeWhile_append_dropWhile,
      List.reverse_reverse, List.takeWhile_append_dropWhile]

end Text

namespace Opening

variable {fields fields' fields'' : List Field} {name value a b : List Char} {key : String}

theorem isBlank_toLower (c : Char) : Text.isBlank c.toLower = Text.isBlank c := by
  unfold Char.toLower
  split
  · -- Neither of the two letters is blank.
    rename_i h
    obtain ⟨hlow, hhigh⟩ := h
    rw [ge_iff_le, UInt32.le_iff_toNat_le] at hlow
    rw [UInt32.le_iff_toNat_le] at hhigh
    simp only [Char.reduceVal, UInt32.reduceToNat] at hlow hhigh
    rw [Bool.eq_iff_iff]
    simp only [Text.isBlank, Char.toNat, Char.reduceVal, UInt32.reduceSub, UInt32.toNat_add,
      UInt32.reduceToNat, Bool.or_eq_true, Bool.and_eq_true, decide_eq_true_eq, beq_iff_eq]
    omega
  · rfl

theorem lower_trim (text : List Char) : lower (Text.trim text) = Text.trim (lower text) := by
  have hblank : Text.isBlank ∘ Char.toLower = Text.isBlank := funext isBlank_toLower
  simp only [Text.trim, lower, List.dropWhile_map, hblank, ← List.map_reverse]

theorem toLower_toLower (c : Char) : c.toLower.toLower = c.toLower := by
  unfold Char.toLower
  split
  · -- A small letter is no capital.
    rw [dif_neg]
    grind
  · rfl

theorem lower_lower (text : List Char) : lower (lower text) = lower text := by
  simp only [lower, List.map_map, Function.comp_def, toLower_toLower]

/-! ## Items -/

/-- The items of a list, with commas between them, in lower case. -/
def itemsOf (value : List Char) : List (List Char) :=
  (pieces ',' value).map fun item => lower (Text.trim item)

theorem lists_iff {token : List Char} : Lists value token ↔ token ∈ itemsOf value := by
  unfold Lists itemsOf
  simp only [parts_iff_pieces, exists_eq_left', List.mem_map]

theorem itemsOf_append (a b : List Char) : itemsOf (a ++ ',' :: b) = itemsOf a ++ itemsOf b := by
  unfold itemsOf
  rw [pieces_eq_splitOn, List.splitOn_append_cons_self, List.map_append, ← pieces_eq_splitOn,
    ← pieces_eq_splitOn]

theorem itemsOf_of_not_mem (h : ',' ∉ value) : itemsOf value = [lower (Text.trim value)] := by
  unfold itemsOf
  rw [pieces_eq_splitOn, List.splitOn_eq_singleton h, List.map_singleton]

theorem comma_not_mem (h : Text.Blank value) : ',' ∉ value := fun hmem => by
  have := h ',' hmem
  revert this
  decide

theorem itemsOf_blank_append {p : List Char} (hp : Text.Blank p) (value : List Char) :
    itemsOf (p ++ value) = itemsOf value := by
  have hfree {a : List Char} (ha : ',' ∉ a) : itemsOf (p ++ a) = itemsOf a := by
    have hpa : ',' ∉ p ++ a := by simp [comma_not_mem hp, ha]
    rw [itemsOf_of_not_mem hpa, itemsOf_of_not_mem ha, Text.trim_append_left hp]
  by_cases hcomma : ',' ∈ value
  · -- The blanks belong to the item before the first comma.
    obtain ⟨a, b, rfl, ha⟩ := List.eq_append_cons_of_mem hcomma
    rw [← List.append_assoc, itemsOf_append, itemsOf_append, hfree ha]
  · exact hfree hcomma

theorem itemsOf_append_blank {s : List Char} (hs : Text.Blank s) (value : List Char) :
    itemsOf (value ++ s) = itemsOf value := by
  have hfree {b : List Char} (hb : ',' ∉ b) : itemsOf (b ++ s) = itemsOf b := by
    have hbs : ',' ∉ b ++ s := by simp [comma_not_mem hs, hb]
    rw [itemsOf_of_not_mem hbs, itemsOf_of_not_mem hb, Text.trim_append_right hs]
  by_cases hcomma : ',' ∈ value
  · -- The blanks belong to the item after the last comma.
    obtain ⟨b, a, hvalue, hb⟩ := List.eq_append_cons_of_mem (List.mem_reverse.mpr hcomma)
    obtain rfl : value = a.reverse ++ ',' :: b.reverse := by
      rw [← List.reverse_reverse value, hvalue]
      simp
    rw [List.append_assoc, List.cons_append, itemsOf_append, itemsOf_append,
      hfree (mt List.mem_reverse.mp hb)]
  · exact hfree hcomma

theorem itemsOf_trim (value : List Char) : itemsOf (Text.trim value) = itemsOf value := by
  obtain ⟨p, s, hp, hs, hvalue⟩ := Text.exists_trim value
  conv_rhs => rw [hvalue, itemsOf_append_blank hs, itemsOf_blank_append hp]

/-- The items of joined values are those of the values. -/
theorem itemsOf_intercalate {values : List (List Char)} (hne : values ≠ []) :
    itemsOf (", ".toList.intercalate values) = values.flatMap itemsOf := by
  have hspace : Text.Blank [' '] := by simp [Text.Blank, Text.isBlank]
  induction values with
  | nil => exact absurd rfl hne
  | cons value later ih =>
    cases later with
    | nil => rw [List.intercalate_singleton, List.flatMap_singleton]
    | cons second later =>
      have hjoined (text : List Char) :
          value ++ ", ".toList ++ text = value ++ ',' :: ([' '] ++ text) := List.append_assoc ..
      rw [List.intercalate_cons_cons, hjoined, itemsOf_append, itemsOf_blank_append hspace,
        ih (by nofun), ← List.flatMap_cons]

/-! ## Values -/

theorem hasListed_iff {token : List Char} : HasListed fields name token ↔
    token ∈ (valuesOf fields name).flatMap itemsOf := by
  unfold HasListed combined
  split
  · rename_i hnone
    simp [hnone]
  · rename_i values hne
    simp only [Option.some.injEq, exists_eq_left', lists_iff, itemsOf_intercalate hne]

/-- A value without commas is a joined value only if it is the only one. -/
theorem combined_eq_some_iff (h : ',' ∉ value) :
    combined fields name = some value ↔ valuesOf fields name = [value] := by
  unfold combined
  constructor
  · intro hvalue
    split at hvalue
    · cases hvalue
    · rename_i hne
      obtain ⟨first, later, hvalues⟩ := List.exists_cons_of_ne_nil hne
      rw [hvalues] at hvalue ⊢
      obtain rfl := Option.some.inj hvalue
      cases later with
      | nil => rw [List.intercalate_singleton]
      | cons second later =>
        rw [List.intercalate_cons_cons] at h
        exact absurd (by simp) h
  · intro hvalues
    rw [hvalues]
    exact congrArg some List.intercalate_singleton

theorem combined_eq_none_iff : combined fields name = none ↔ valuesOf fields name = [] := by
  unfold combined
  split
  · simp_all
  · simp_all

theorem combined_of_ne_nil (hne : valuesOf fields name ≠ []) :
    combined fields name = some (", ".toList.intercalate (valuesOf fields name)) := by
  unfold combined
  split
  · contradiction
  · rfl

theorem comma_not_mem_encode (octets : Bytes) : ',' ∉ Base64.encode octets :=
  fun hmem => absurd (Base64.mem_encode hmem) (by decide)

theorem hasKey_iff : HasKey fields key ↔ valuesOf fields "sec-websocket-key".toList = [key.toList] ∧
    ∃ nonce : Bytes, nonce.length = 16 ∧ key.toList = Base64.encode nonce := by
  unfold HasKey
  refine and_congr_left ?_
  rintro ⟨nonce, -, hkey⟩
  exact combined_eq_some_iff (hkey ▸ comma_not_mem_encode nonce)

theorem speaks_combined_iff : Speaks (combined fields name) ↔
    valuesOf fields name = [] ∨ valuesOf fields name = ["13".toList] := by
  rw [Speaks, combined_eq_none_iff, combined_eq_some_iff (by decide)]

/-! ## Fields -/

/-- A name under which the values are lists. -/
def IsList (name : List Char) : Prop := name = "upgrade".toList ∨ name = "connection".toList

/-- The fields list the same items, and other values are the same in some order. -/
structure Alike (fields fields' : List Field) : Prop where
  items : ∀ name, IsList name → ∀ item, item ∈ (valuesOf fields name).flatMap itemsOf ↔
    item ∈ (valuesOf fields' name).flatMap itemsOf
  values : ∀ name, ¬ IsList name → (valuesOf fields name).Perm (valuesOf fields' name)

theorem Alike.refl (fields : List Field) : Alike fields fields :=
  ⟨fun _ _ _ => Iff.rfl, fun _ _ => .refl _⟩

theorem Alike.symm (h : Alike fields fields') : Alike fields' fields :=
  ⟨fun name hname item => (h.items name hname item).symm,
    fun name hname => (h.values name hname).symm⟩

theorem Alike.trans (h : Alike fields fields') (h' : Alike fields' fields'') :
    Alike fields fields'' :=
  ⟨fun name hname item => (h.items name hname item).trans (h'.items name hname item),
    fun name hname => (h.values name hname).trans (h'.values name hname)⟩

theorem alike_of_perm (h : fields.Perm fields') : Alike fields fields' := by
  have hvalues (name : List Char) : (valuesOf fields name).Perm (valuesOf fields' name) :=
    (h.filter _).map _
  exact ⟨fun name _ item => ((hvalues name).flatMap_right itemsOf).mem_iff,
    fun name _ => hvalues name⟩

/-- A list field and two fields with parts of its list are alike. -/
theorem alike_of_split (hname : IsList name) (hitems : itemsOf value = itemsOf a ++ itemsOf b)
    (later : List Field) : Alike ((name, value) :: later) ((name, a) :: (name, b) :: later) := by
  refine ⟨fun m _ item => ?_, fun m hm => ?_⟩
  · by_cases hsame : name = m
    · simp [valuesOf, hsame, hitems]
    · simp [valuesOf, hsame]
  · have hother : name ≠ m := fun hsame => hm (hsame ▸ hname)
    simp [valuesOf, hother]

theorem Alike.hasListed_iff {token : List Char} (h : Alike fields fields') (hname : IsList name) :
    HasListed fields name token ↔ HasListed fields' name token := by
  rw [Opening.hasListed_iff, Opening.hasListed_iff, h.items name hname]

theorem Alike.hasKey_iff (h : Alike fields fields') : HasKey fields key ↔ HasKey fields' key := by
  have hvalues := h.values "sec-websocket-key".toList (by simp [IsList])
  rw [Opening.hasKey_iff, Opening.hasKey_iff, ← List.perm_singleton, ← List.perm_singleton]
  exact and_congr_left fun _ => ⟨hvalues.symm.trans, hvalues.trans⟩

theorem Alike.speaks_iff (h : Alike fields fields') :
    Speaks (combined fields "sec-websocket-version".toList) ↔
      Speaks (combined fields' "sec-websocket-version".toList) := by
  have hvalues := h.values "sec-websocket-version".toList (by simp [IsList])
  simp only [speaks_combined_iff, ← List.perm_nil, ← List.perm_singleton]
  exact or_congr ⟨hvalues.symm.trans, hvalues.trans⟩ ⟨hvalues.symm.trans, hvalues.trans⟩

/-! ## Requests -/

/-- Whatever a request asks for, another asks for it as well, if perhaps in other words. -/
def Transfers (request request' : Bytes) : Prop :=
  ∀ key version, Asks request key version →
    ∃ version', Asks request' key version' ∧ (Speaks version ↔ Speaks version')

variable {request request' : Bytes}

theorem Alike.transfers (h : Alike fields fields') (hpresents : Presents request fields)
    (hpresents' : Presents request' fields') : Transfers request request' := by
  intro key version hasks
  obtain ⟨hupgrade, hconnection, hkey, rfl⟩ := hpresents.asks_iff.mp hasks
  refine ⟨_, hpresents'.asks_iff.mpr ⟨?_, ?_, h.hasKey_iff.mp hkey, rfl⟩, h.speaks_iff⟩
  · exact (h.hasListed_iff (.inl rfl)).mp hupgrade
  · exact (h.hasListed_iff (.inr rfl)).mp hconnection

/-- What the check of one request may come to, the check of another one may. -/
theorem Decides.transfer {result : Except OpeningError String} (h : Decides request result)
    (hto : Transfers request request') (hfrom : Transfers request' request) :
    Decides request' result := by
  cases h with
  | opens hasks hspeaks =>
    obtain ⟨version', hasks', hiff⟩ := hto _ _ hasks
    exact .opens hasks' (hiff.mp hspeaks)
  | otherVersion hasks hother hreply =>
    obtain ⟨version', hasks', hiff⟩ := hto _ _ hasks
    exact .otherVersion hasks' (mt hiff.mpr hother) hreply
  | refuses hnone hreply =>
    refine .refuses (fun key version hasks' => ?_) hreply
    obtain ⟨version', hasks, -⟩ := hfrom _ _ hasks'
    exact hnone _ _ hasks

def replyTo : Except OpeningError String → String
  | .ok key => acceptance key
  | .error error => error.reply

/-- Two results that the check of a request may come to are answered alike. -/
theorem Decides.answers {result result' : Except OpeningError String} (h : Decides request result)
    (h' : Decides request result') : result.isOk = result'.isOk ∧
      replyTo result = replyTo result' := by
  cases h with
  | opens hasks hspeaks =>
    cases h' with
    | opens hasks' hspeaks' =>
      obtain ⟨rfl, -⟩ := hasks.unique hasks'
      exact ⟨rfl, rfl⟩
    | otherVersion hasks' hother' =>
      obtain ⟨-, rfl⟩ := hasks.unique hasks'
      exact absurd hspeaks hother'
    | refuses hnone' => exact absurd hasks (hnone' _ _)
  | otherVersion hasks hother hreply =>
    cases h' with
    | opens hasks' hspeaks' =>
      obtain ⟨-, rfl⟩ := hasks.unique hasks'
      exact absurd hspeaks' hother
    | otherVersion _ _ hreply' => exact ⟨rfl, hreply.trans hreply'.symm⟩
    | refuses hnone' => exact absurd hasks (hnone' _ _)
  | refuses hnone hreply =>
    cases h' with
    | opens hasks' | otherVersion hasks' => exact absurd hasks' (hnone _ _)
    | refuses _ hreply' => exact ⟨rfl, hreply.trans hreply'.symm⟩

theorem negotiate_eq (request : Bytes) :
    (negotiate request).isAccepted = (checkRequest request).isOk ∧
      (negotiate request).reply =
        Bytes.ofString (replyTo (checkRequest request)) := by
  unfold negotiate
  cases checkRequest request <;> exact ⟨rfl, rfl⟩

/-- Requests that ask for the same are answered alike. -/
theorem negotiate_of_transfers (hto : Transfers request request')
    (hfrom : Transfers request' request) :
    (negotiate request).reply = (negotiate request').reply ∧
      (negotiate request).isAccepted = (negotiate request').isAccepted := by
  obtain ⟨haccepted, hreply⟩ := (decides request').answers ((decides request).transfer hto hfrom)
  obtain ⟨ha, hr⟩ := negotiate_eq request
  obtain ⟨ha', hr'⟩ := negotiate_eq request'
  exact ⟨by rw [hr, hr', hreply], by rw [ha, ha', haccepted]⟩

end Opening

end WebSocket
