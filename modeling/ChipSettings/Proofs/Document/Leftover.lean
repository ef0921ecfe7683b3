import ChipSettings.Proofs.Document.Extent
import ChipSettings.Proofs.Document.RootElement
import ChipSettings.Proofs.Document.Truncation

/-! # Text behind a Document

  The reader stops at the end of the document element, so that nothing behind it is looked at,
  be it well formed or not.

  - `tokens_same_front`: the tokens up to the end of the document element are the same whatever
    follows. `read_append`: so what is read is the same, too.
  - `deserialize_append`: the same for the files of a store. `leftover_accepted` is a file that
    is no document, and loaded as one.
-/

namespace ChipSettings

open Files Xml

namespace Document

/-! ## Texts -/

/-- An element among the events of tokens stands among the tokens. -/
theorem exists_firstTag?_of_mem_events {ts : List Token} {tag : Tag} (h : .start tag ∈ events ts) :
    ∃ root, firstTag? ts = some root := by
  have hlater {e : Event} {es : List Event} (hne : e ≠ .start tag) (h : .start tag ∈ e :: es) :
      .start tag ∈ es := List.mem_of_ne_of_mem (Ne.symm hne) h
  have hjoin {piece : Except XmlError (List Char)} {es : List Event}
      (h : .start tag ∈ joinText piece es) : .start tag ∈ es := by
    cases es with
    | nil => exact hlater (e := .text piece) nofun h
    | cons e es => cases e with
      | text content => exact List.mem_cons_of_mem _ (hlater (e := .text _) nofun h)
      | _ => exact hlater (e := .text piece) nofun h
  induction ts with
  | nil => cases h
  | cons t ts ih => cases t with
    | startTag root selfClosing => exact ⟨root, rfl⟩
    | text content => exact ih (hjoin h)
    | cdata content => exact ih (hjoin h)
    | reference name => exact ih (hjoin h)
    | comment => exact ih h
    | instruction => exact ih h
    | doctype => exact ih (hlater (e := .doctype) nofun h)
    | endTag name => exact ih (hlater (e := .finish) nofun h)

/-- Tokens behind the first element do not change which it is. -/
theorem firstTag?_append {ts : List Token} {root : Tag} (h : firstTag? ts = some root)
    (more : List Token) : firstTag? (ts ++ more) = some root := by
  induction ts with
  | nil => cases h
  | cons t ts ih => cases t with
    | startTag tag selfClosing => exact h
    | _ => exact ih h

/-- The tokens of a text up to a tag are the first ones of every text that starts with it. -/
theorem tokens_same_front {cs : List Char} {us vs : List Token} {t : Token}
    (h : (tokens cs).1 = us ++ t :: vs) (htag : t.isTag = true) (more : List Char) :
    ∃ vs', (tokens (cs ++ more)).1 = us ++ t :: vs' := by
  have hnest : (nest [] (scan cs).1 (scan cs).2).1 = us ++ t :: vs := h
  obtain ⟨tail, htail⟩ := prefix_nest [] (scan cs).1 (scan cs).2
  rw [hnest, List.append_assoc] at htail
  obtain ⟨tail', htail'⟩ := scan_same_front htail.symm htag more
  rw [← htail, List.cons_append, List.append_cons us t (vs ++ tail),
    List.append_cons us t vs] at hnest
  rw [List.append_cons] at htail'
  obtain ⟨vs', hvs'⟩ := nest_same_front hnest tail' (scan (cs ++ more)).2
  refine ⟨vs', ?_⟩
  show (nest [] (scan (cs ++ more)).1 (scan (cs ++ more)).2).1 = _
  rw [htail', hvs', ← List.append_cons]

/-- Both passes of the reader go over the text without the byte order marks. -/
theorem read_of_body {cs body : List Char} (h : cs.dropWhile (· == byteOrderMark) = body) :
    read cs = (checkRoot (tokens body).2 (tokens body).1).bind fun _ =>
      readRoot (tokens body).2 (events (tokens body).1) := by
  subst h
  rfl

/-- A text that is read is read in the same way, whatever is put behind it. -/
theorem read_append {cs : List Char} {p : Profile} (h : read cs = .ok p) (more : List Char) :
    read (cs ++ more) = .ok p := by
  rw [read_of_body rfl] at h
  obtain ⟨u, hcheck, hroot⟩ := exists_of_bind_eq_ok h
  -- the text is more than byte order marks, so that the same ones are dropped
  have hmarks : cs.dropWhile (· == byteOrderMark) ≠ [] := by
    intro hnil
    rw [hnil, show tokens [] = ([], .complete) by unfold tokens; rw [scan_nil]; rfl] at hcheck
    cases hcheck
  rw [read_of_body (takeWhile_dropWhile_append hmarks more).2]
  generalize cs.dropWhile (· == byteOrderMark) = body at hcheck hroot
  -- the tokens up to the end of the document element come first in the longer text, too
  obtain ⟨front, rest, tag, hevents, hmem, hread⟩ := exists_end_readRoot hroot
  obtain ⟨us, t, vs, htokens, htag, hfront⟩ := exists_tokens_of_events hevents
  obtain ⟨vs', hvs'⟩ := tokens_same_front htokens htag more
  have hstart : .start tag ∈ events (us ++ [t]) := by
    rw [hfront []]
    exact List.mem_append_left _ hmem
  obtain ⟨root, hfirst⟩ := exists_firstTag?_of_mem_events hstart
  have hroots (more : List Token) : firstTag? (us ++ t :: more) = some root := by
    rw [List.append_cons]
    exact firstTag?_append hfirst more
  have hcheck' : checkRoot (tokens (body ++ more)).2 (tokens (body ++ more)).1 = .ok u := by
    rw [checkRoot_eq, htokens, hroots] at hcheck
    rw [checkRoot_eq, hvs', hroots]
    exact hcheck
  have hroot' : readRoot (tokens (body ++ more)).2 (events (tokens (body ++ more)).1) = .ok p := by
    rw [hvs', hfront]
    exact hread _ _
  rw [hcheck', ← hroot']
  rfl

/-! ## Files -/

/-- **What is behind a document is not looked at.** A text that is accepted is accepted with any
    text behind it, and a file of the two is imported and loaded as the first one alone. -/
theorem deserialize_append (text leftover : String) (p : Profile)
    (h : Codec.xml.deserialize text = .ok p) :
    Codec.xml.deserialize (text ++ leftover) = .ok p ∧
      ∀ (path other : Path) (t : FileTree),
        t.find? path = some (.file (text ++ leftover).toUTF8) →
          (Store.atPath other).importFrom t path = .ok p ∧
          (Store.atPath path).loadCurrent t = .ok p ∧
          (Store.atPath path).loadOrDefault t = p := by
  have hread : Document.read text.toList = .ok p := eq_ok_of_mapError_eq_ok h
  have hboth : Codec.xml.deserialize (text ++ leftover) = .ok p := by
    show (Document.read (text ++ leftover).toList).mapError _ = _
    rw [String.toList_append, read_append hread]
    rfl
  refine ⟨hboth, fun path other t hfile => ?_⟩
  have hload : (Store.atPath path).loadCurrent t = .ok p := Store.loadCurrent_of_text hfile hboth
  exact ⟨Store.importFrom_of_text hfile hboth, hload, Store.loadOrDefault_of_loadCurrent hload⟩

/-- The document of other layers, left behind the one of the defaults: the defaults are loaded. -/
theorem deserialize_append_older :
    let newer := String.ofList (write .default)
    let older := String.ofList (write { Profile.default with flowLayers := ["Channels"] })
    Codec.xml.deserialize newer = .ok .default ∧
      (Store.atPath ⟨"f"⟩).loadOrDefault (Store.treeOfFile ['f'] (newer ++ older).toUTF8) =
        .default := by
  intro newer older
  have hread : Codec.xml.deserialize newer = .ok .default := by
    rw [deserialize_write, readBack_eq_self]
    intro k
    cases k with
    | flow => exact isForeignLineEnd_of_all rfl
    | control => exact isForeignLineEnd_of_all rfl
  obtain ⟨-, hfile⟩ := deserialize_append newer older .default hread
  exact ⟨hread, (hfile ⟨"f"⟩ ⟨"f"⟩ _ rfl).2.2⟩

/-- A gap that starts with a bracket goes on as a comment or as an instruction. -/
theorem head?_of_gap_bracket {gap : Gap} {cs : List Char} (h : gap.prose.render = '<' :: cs) :
    cs.head? = some '!' ∨ cs.head? = some '?' := by
  obtain ⟨prose, hblank⟩ := gap
  have hrun {run : Run} {behind : List Char} (h : run.chars ++ behind = '<' :: cs) :
      behind = '<' :: cs := by
    have htext := run.isTextChar_of_mem
    cases hchars : run.chars with
    | nil => rwa [hchars] at h
    | cons c chars =>
      rw [hchars] at h htext
      obtain rfl := (List.cons.inj h).1
      cases htext _ List.mem_cons_self
  cases prose with
  | last run => cases hrun ((List.append_nil run.chars).trans h)
  | next run piece after =>
    simp only [Prose.isBlank, Bool.and_eq_true] at hblank
    have hpiece := hrun h
    cases piece with
    | reference name c h => cases hblank.1.2
    | cdata content h => cases hblank.1.2
    | comment content h => cases hpiece; exact .inl rfl
    | instruction content h => cases hpiece; exact .inr rfl

/-- The document of an empty element. -/
def emptyDocument (rest : List Char) : SettingsText where
  marked := false
  prolog := .last ⟨.empty, rfl⟩
  root := .alone plainName_rootName.tagText
  isRoot := rfl
  rest := rest

theorem deserialize_emptyDocument (rest : String) :
    Codec.xml.deserialize ("<Settings/>" ++ rest) = .ok .default := by
  have hrender : ("<Settings/>" ++ rest).toList = (emptyDocument rest.toList).render := by
    rw [String.toList_append]
    rfl
  show (read ("<Settings/>" ++ rest).toList).mapError _ = _
  rw [hrender, SettingsText.read_render]
  rfl

/-- **Not every file that is loaded is one document**: `<Settings/>` is a document up to the end of
    its element, and `<x` is no gap that may follow it, but the start of a tag that never ends.
    Together they are loaded as the defaults. -/
theorem leftover_accepted :
    (emptyDocument []).rest = [] ∧ (emptyDocument []).render = "<Settings/>".toList ∧
    Codec.xml.deserialize "<Settings/>" = .ok .default ∧
    (∀ gap : Gap, gap.prose.render ≠ "<x".toList) ∧
    Codec.xml.deserialize ("<Settings/>" ++ "<x") = .ok .default ∧
    (Store.atPath ⟨"f"⟩).loadCurrent
      (Store.treeOfFile ['f'] ("<Settings/>" ++ "<x").toUTF8) = .ok .default := by
  refine ⟨rfl, by decide, deserialize_emptyDocument "", fun gap h => ?_,
    deserialize_emptyDocument "<x", Store.loadCurrent_of_text rfl (deserialize_emptyDocument "<x")⟩
  rcases head?_of_gap_bracket h with hbang | hmark
  · cases hbang
  · cases hmark

end Document

end ChipSettings
