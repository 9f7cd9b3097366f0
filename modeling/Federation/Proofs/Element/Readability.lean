import Federation.Element.Xml
import Federation.Text.Character

/-!
The XML text of an element can be read in one way only. Names hold no character that has a meaning
in XML, and in values these characters are written as entities, so each part of the text ends at the
first character that ends parts of its kind. Whatever stands in values and in character data, it is
not taken for anything else.

One thing is lost: in an element with children, character data that is absent is written as data
that is empty.
-/

namespace Federation.Element

def entities : List String :=
  ["&amp;", "&lt;", "&gt;", "&apos;", "&quot;"]

/-- A character that may stand in a name: no white space, and nothing with a meaning in XML. -/
def IsNameChar (c : Char) : Prop :=
  Text.isBlank c = false ∧ c ∉ ['<', '>', '/', '=', '&', '\'', '"']

instance (c : Char) : Decidable (IsNameChar c) :=
  inferInstanceAs (Decidable (_ ∧ _))

def IsName (name : String) : Prop :=
  name ≠ "" ∧ ∀ c ∈ name.toList, IsNameChar c

instance (name : String) : Decidable (IsName name) :=
  have : Decidable (∀ c ∈ name.toList, IsNameChar c) := List.decidableBAll _ name.toList
  inferInstanceAs (Decidable (_ ∧ _))

inductive IsNamed : Element → Prop
  | intro {name : String} {attrs : List (String × String)} {cdata : Option String}
      {children : List Element} (hname : IsName name) (hkeys : ∀ attr ∈ attrs, IsName attr.1)
      (hchildren : ∀ child ∈ children, IsNamed child) : IsNamed ⟨name, attrs, cdata, children⟩

mutual

/-- The element with empty character data for absent data, in every element that has children. -/
def filled : Element → Element
  | ⟨name, attrs, cdata, children⟩ =>
    ⟨name, attrs, if children.isEmpty then cdata else some (cdata.getD ""), filledAll children⟩

def filledAll : List Element → List Element
  | [] => []
  | e :: rest => filled e :: filledAll rest

end

example :
    filled ⟨"a", [], none, [⟨"c", [], none, []⟩]⟩ = ⟨"a", [], some "", [⟨"c", [], none, []⟩]⟩ :=
  rfl

@[simp] theorem isEmpty_filledAll (es : List Element) : (filledAll es).isEmpty = es.isEmpty := by
  cases es <;> rfl

mutual

/-- Writing in the empty data does not change the text. -/
theorem xmlChars_filled : ∀ e : Element, (filled e).xmlChars = e.xmlChars
  | ⟨name, attrs, cdata, children⟩ => by
    have hchildren := xmlCharsAll_filledAll children
    cases children with
    | nil => rfl
    | cons child children =>
      simp only [filled, xmlChars, isEmpty_filledAll, hchildren]
      simp

theorem xmlCharsAll_filledAll : ∀ es : List Element, xmlCharsAll (filledAll es) = xmlCharsAll es
  | [] => rfl
  | e :: es => by
    simp only [filledAll, xmlCharsAll, xmlChars_filled e, xmlCharsAll_filledAll es]

end

/-- Two texts that agree agree up to the first character that is not ordinary. -/
theorem append_stop_inj {ordinary : Char → Prop} {xs ys rest rest' : List Char} {s t : Char}
    (hxs : ∀ c ∈ xs, ordinary c) (hys : ∀ c ∈ ys, ordinary c) (hs : ¬ ordinary s)
    (ht : ¬ ordinary t) (h : xs ++ s :: rest = ys ++ t :: rest') :
    xs = ys ∧ s :: rest = t :: rest' := by
  induction xs generalizing ys with
  | nil =>
    cases ys with
    | nil => exact ⟨rfl, h⟩
    | cons y ys =>
      obtain ⟨rfl, -⟩ := List.cons.inj h
      exact absurd (hys _ List.mem_cons_self) hs
  | cons x xs ih =>
    cases ys with
    | nil =>
      obtain ⟨rfl, -⟩ := List.cons.inj h
      exact absurd (hxs _ List.mem_cons_self) ht
    | cons y ys =>
      obtain ⟨rfl, htail⟩ := List.cons.inj h
      obtain ⟨rfl, hrest⟩ := ih (fun c hc => hxs c (List.mem_cons_of_mem _ hc))
        (fun c hc => hys c (List.mem_cons_of_mem _ hc)) htail
      exact ⟨rfl, hrest⟩

section Escape

/-- A special character is written as its entity, any other one as itself. -/
theorem escapeChar_cases (c : Char) :
    (∃ entity ∈ entities, escapeChar c = entity.toList) ∨
      escapeChar c = [c] ∧ c ∉ ['&', '<', '>', '\'', '"'] := by
  unfold escapeChar
  split
  · exact Or.inl ⟨"&amp;", by decide, rfl⟩
  · exact Or.inl ⟨"&lt;", by decide, rfl⟩
  · exact Or.inl ⟨"&gt;", by decide, rfl⟩
  · exact Or.inl ⟨"&apos;", by decide, rfl⟩
  · exact Or.inl ⟨"&quot;", by decide, rfl⟩
  · exact Or.inr ⟨rfl, by simp_all⟩

theorem escapeChar_ne_nil (c : Char) : escapeChar c ≠ [] := by
  unfold escapeChar
  split <;> simp

theorem escapeChar_injective : Function.Injective escapeChar := by
  intro c d h
  unfold escapeChar at h
  split at h <;> split at h <;> simp_all

/-- No character is written as the beginning of what another one is written as. -/
theorem escapeChar_prefix_free {c d : Char} (h : escapeChar c <+: escapeChar d) :
    escapeChar c = escapeChar d := by
  have hfree : ∀ a ∈ entities, ∀ b ∈ entities, a.toList <+: b.toList → a.toList = b.toList := by
    decide
  have hhead : ∀ a ∈ entities, a.toList.head? = some '&' ∧ 1 < a.toList.length := by decide
  rcases escapeChar_cases c with ⟨a, ha, hc⟩ | ⟨hc, hplain⟩ <;>
    rcases escapeChar_cases d with ⟨b, hb, hd⟩ | ⟨hd, -⟩ <;> rw [hc, hd] at h ⊢
  · exact hfree a ha b hb h
  · have hlength := h.length_le
    have hlong := (hhead a ha).2
    rw [List.length_singleton] at hlength
    omega
  · obtain ⟨tail, htail⟩ := h
    have hc' := (hhead b hb).1
    rw [← htail, List.singleton_append, List.head?_cons, Option.some.injEq] at hc'
    exact absurd (hc' ▸ List.mem_cons_self) hplain
  · obtain ⟨tail, htail⟩ := h
    rw [(List.cons.inj htail).1]

/-- What a character is written as says which one it is, and where it ends. -/
theorem escapeChar_append_inj {c d : Char} {rest rest' : List Char}
    (h : escapeChar c ++ rest = escapeChar d ++ rest') : c = d ∧ rest = rest' := by
  have heq : escapeChar c = escapeChar d := by
    rcases List.append_eq_append_iff.mp h with ⟨more, hd, -⟩ | ⟨more, hc, -⟩
    · exact escapeChar_prefix_free ⟨more, hd.symm⟩
    · exact (escapeChar_prefix_free ⟨more, hc.symm⟩).symm
  rw [heq] at h
  exact ⟨escapeChar_injective heq, List.append_cancel_left h⟩

theorem escapeChars_cons (c : Char) (cs : List Char) :
    escapeChars (c :: cs) = escapeChar c ++ escapeChars cs :=
  rfl

theorem escapeChars_injective : Function.Injective escapeChars := by
  intro cs
  induction cs with
  | nil =>
    intro ds h
    cases ds with
    | nil => rfl
    | cons d ds => exact absurd (List.append_eq_nil_iff.mp h.symm).1 (escapeChar_ne_nil d)
  | cons c cs ih =>
    intro ds h
    cases ds with
    | nil => exact absurd (List.append_eq_nil_iff.mp h).1 (escapeChar_ne_nil c)
    | cons d ds =>
      obtain ⟨rfl, hcs⟩ := escapeChar_append_inj h
      rw [ih hcs]

theorem escape_injective : Function.Injective escape := by
  intro a b h
  have hchars : escapeChars a.toList = escapeChars b.toList := by
    rw [← toList_escape, ← toList_escape, h]
  exact String.toList_inj.mp (escapeChars_injective hchars)

/-- Nothing written for a text is taken for a mark of the syntax. -/
theorem notMem_escapeChars {mark : Char} (hmark : mark ∈ ['<', '>', '\'', '"']) (cs : List Char) :
    mark ∉ escapeChars cs := by
  rw [escapeChars, List.mem_flatMap]
  rintro ⟨c, -, hc⟩
  rcases escapeChar_cases c with ⟨entity, hentity, heq⟩ | ⟨heq, hplain⟩
  · have hnone : ∀ entity ∈ entities, ∀ mark ∈ ['<', '>', '\'', '"'], mark ∉ entity.toList := by
      simp [entities]
    exact hnone entity hentity mark hmark (heq ▸ hc)
  · rw [heq, List.mem_singleton] at hc
    subst hc
    exact hplain (List.mem_cons_of_mem _ hmark)

/-- In what is written for a character, an ampersand is the start of an entity. -/
theorem escapeChar_ampersand {c : Char} {before after : List Char}
    (h : escapeChar c = before ++ '&' :: after) :
    before = [] ∧ ∃ entity ∈ entities, entity.toList = '&' :: after := by
  rcases escapeChar_cases c with ⟨entity, hentity, heq⟩ | ⟨heq, hplain⟩
  · cases before with
    | nil => exact ⟨rfl, entity, hentity, heq.symm.trans h⟩
    | cons b before =>
      have hnone : ∀ entity ∈ entities, '&' ∉ entity.toList.tail := by decide
      refine absurd ?_ (hnone entity hentity)
      rw [← heq, h]
      simp
  · rw [heq] at h
    cases before with
    | nil =>
      obtain ⟨rfl, -⟩ := List.cons.inj h
      exact absurd List.mem_cons_self hplain
    | cons b before => simp at h

/-- In what is written for a text, an ampersand is the start of an entity. -/
theorem escapeChars_ampersand {cs before after : List Char}
    (h : escapeChars cs = before ++ '&' :: after) :
    ∃ entity ∈ entities, entity.toList <+: '&' :: after := by
  induction cs generalizing before with
  | nil => simp [escapeChars] at h
  | cons c cs ih =>
    rw [escapeChars_cons, List.append_eq_append_iff] at h
    rcases h with ⟨more, -, hmore⟩ | ⟨more, hc, hmore⟩
    · exact ih hmore
    · cases more with
      | nil =>
        have hstart : escapeChars cs = [] ++ '&' :: after := hmore.symm
        exact ih hstart
      | cons first more =>
        obtain ⟨rfl, hafter⟩ := List.cons.inj hmore
        obtain ⟨-, entity, hentity, heq⟩ := escapeChar_ampersand hc
        exact ⟨entity, hentity, heq ▸ hafter ▸ List.prefix_append ('&' :: more) (escapeChars cs)⟩

end Escape

section Tags

/-- A name ends where a character follows that cannot stand in one. -/
theorem name_append_inj {name name' : String} {rest rest' : List Char} {s t : Char}
    (hname : IsName name) (hname' : IsName name') (hs : ¬ IsNameChar s) (ht : ¬ IsNameChar t)
    (h : name.toList ++ s :: rest = name'.toList ++ t :: rest') :
    name = name' ∧ s :: rest = t :: rest' := by
  obtain ⟨hchars, hrest⟩ := append_stop_inj hname.2 hname'.2 hs ht h
  exact ⟨String.toList_inj.mp hchars, hrest⟩

/-- A written text ends at the first mark after it. -/
theorem escape_append_inj {mark : Char} (hmark : mark ∈ ['<', '>', '\'', '"'])
    {text text' : String} {rest rest' : List Char}
    (h : escapeChars text.toList ++ mark :: rest = escapeChars text'.toList ++ mark :: rest') :
    text = text' ∧ rest = rest' := by
  have hplain (cs : List Char) : ∀ c ∈ escapeChars cs, c ≠ mark := by
    rintro c hc rfl
    exact notMem_escapeChars hmark cs hc
  obtain ⟨hchars, hrest⟩ := append_stop_inj (hplain _) (hplain _) (by simp) (by simp) h
  exact ⟨String.toList_inj.mp (escapeChars_injective hchars), (List.cons.inj hrest).2⟩

theorem attrChars_append (attr : String × String) (rest : List Char) :
    attrChars attr ++ rest =
      ' ' :: (attr.1.toList ++ '=' :: '\'' :: (escapeChars attr.2.toList ++ '\'' :: rest)) := by
  simp [attrChars]

/-- An attribute says its key and its value, and where it ends. -/
theorem attrChars_append_inj {attr attr' : String × String} {rest rest' : List Char}
    (hkey : IsName attr.1) (hkey' : IsName attr'.1)
    (h : attrChars attr ++ rest = attrChars attr' ++ rest') : attr = attr' ∧ rest = rest' := by
  rw [attrChars_append, attrChars_append] at h
  obtain ⟨hk, h⟩ := name_append_inj hkey hkey' (by decide) (by decide) (List.cons.inj h).2
  obtain ⟨hv, hrest⟩ := escape_append_inj (by decide) (List.cons.inj (List.cons.inj h).2).2
  exact ⟨Prod.ext hk hv, hrest⟩

/-- The attributes end at the mark that ends the opening tag. -/
theorem attrs_append_inj {attrs attrs' : List (String × String)} {rest rest' : List Char}
    {s t : Char} (hkeys : ∀ attr ∈ attrs, IsName attr.1) (hkeys' : ∀ attr ∈ attrs', IsName attr.1)
    (hs : s ≠ ' ') (ht : t ≠ ' ')
    (h : attrs.flatMap attrChars ++ s :: rest = attrs'.flatMap attrChars ++ t :: rest') :
    attrs = attrs' ∧ s :: rest = t :: rest' := by
  induction attrs generalizing attrs' with
  | nil =>
    cases attrs' with
    | nil => exact ⟨rfl, h⟩
    | cons attr attrs' =>
      rw [List.flatMap_cons, List.append_assoc, attrChars_append] at h
      exact absurd (List.cons.inj h).1 hs
  | cons attr attrs ih =>
    cases attrs' with
    | nil =>
      rw [List.flatMap_cons, List.append_assoc, attrChars_append] at h
      exact absurd (List.cons.inj h).1.symm ht
    | cons attr' attrs' =>
      rw [List.flatMap_cons, List.flatMap_cons, List.append_assoc, List.append_assoc] at h
      obtain ⟨rfl, hmore⟩ := attrChars_append_inj (hkeys _ List.mem_cons_self)
        (hkeys' _ List.mem_cons_self) h
      obtain ⟨rfl, hrest⟩ := ih (fun a ha => hkeys a (List.mem_cons_of_mem _ ha))
        (fun a ha => hkeys' a (List.mem_cons_of_mem _ ha)) hmore
      exact ⟨rfl, hrest⟩

/-- After a name stands a blank or the mark that ends the tag, neither of which is in a name. -/
theorem exists_stop_attrs (attrs : List (String × String)) {s : Char} (hs : ¬ IsNameChar s)
    (rest : List Char) :
    ∃ c tail, attrs.flatMap attrChars ++ s :: rest = c :: tail ∧ ¬ IsNameChar c := by
  cases attrs with
  | nil => exact ⟨s, rest, rfl, hs⟩
  | cons attr attrs =>
    rw [List.flatMap_cons, List.append_assoc, attrChars_append]
    exact ⟨' ', _, rfl, by decide⟩

/-- An opening tag says the name and the attributes, and where it ends. -/
theorem openChars_append_inj {name name' : String} {attrs attrs' : List (String × String)}
    {rest rest' : List Char} {s t : Char} (hname : IsName name) (hname' : IsName name')
    (hkeys : ∀ attr ∈ attrs, IsName attr.1) (hkeys' : ∀ attr ∈ attrs', IsName attr.1)
    (hs : s ∈ ['/', '>']) (ht : t ∈ ['/', '>'])
    (h : openChars name attrs ++ s :: rest = openChars name' attrs' ++ t :: rest') :
    name = name' ∧ attrs = attrs' ∧ s :: rest = t :: rest' := by
  have hstop : ∀ c ∈ ['/', '>'], ¬ IsNameChar c ∧ c ≠ ' ' := by simp [IsNameChar]
  obtain ⟨c, tail, heq, hc⟩ := exists_stop_attrs attrs (hstop s hs).1 rest
  obtain ⟨c', tail', heq', hc'⟩ := exists_stop_attrs attrs' (hstop t ht).1 rest'
  simp only [openChars, List.cons_append, List.append_assoc, heq, heq'] at h
  obtain ⟨rfl, hattrs⟩ := name_append_inj hname hname' hc hc' (List.cons.inj h).2
  rw [← heq, ← heq'] at hattrs
  exact ⟨rfl, attrs_append_inj hkeys hkeys' (hstop s hs).2 (hstop t ht).2 hattrs⟩

end Tags

/-- The text of the element tells it, up to absent data, from any other one, and tells where the
text ends. -/
def IsReadable (e : Element) : Prop :=
  ∀ f, IsNamed f → ∀ rest rest', e.xmlChars ++ rest = f.xmlChars ++ rest' →
    e.filled = f.filled ∧ rest = rest'

/-- An element starts with its opening tag, whose mark says whether there is anything inside. -/
theorem xmlChars_append (name : String) (attrs : List (String × String)) (cdata : Option String)
    (children : List Element) (rest : List Char) :
    xmlChars ⟨name, attrs, cdata, children⟩ ++ rest =
      openChars name attrs ++
        if cdata.isNone && children.isEmpty then '/' :: '>' :: rest
        else '>' :: (escapeChars (cdata.getD "").toList ++
          (xmlCharsAll children ++ '<' :: '/' :: (name.toList ++ '>' :: rest))) := by
  rw [xmlChars]
  split <;> simp [closeChars]

theorem xmlCharsAll_cons_append (e : Element) (es : List Element) (rest : List Char) :
    xmlCharsAll (e :: es) ++ rest = e.xmlChars ++ (xmlCharsAll es ++ rest) := by
  rw [xmlCharsAll, List.append_assoc]

/-- Whatever follows the data of an element, it starts like a tag. -/
theorem exists_xmlCharsAll (es : List Element) (rest : List Char) :
    ∃ tail, xmlCharsAll es ++ '<' :: rest = '<' :: tail := by
  cases es with
  | nil => exact ⟨rest, rfl⟩
  | cons e es =>
    obtain ⟨name, attrs, cdata, children⟩ := e
    rw [xmlCharsAll_cons_append, xmlChars_append]
    exact ⟨_, rfl⟩

/-- No opening tag is taken for a closing one. -/
theorem IsNamed.xmlChars_ne {e : Element} (he : IsNamed e) (rest rest' : List Char) :
    e.xmlChars ++ rest ≠ '<' :: '/' :: rest' := by
  intro h
  cases he with
  | @intro name attrs cdata children hname _ _ =>
    rw [xmlChars_append, openChars, List.cons_append, List.cons_append, List.append_assoc] at h
    have htail := (List.cons.inj h).2
    cases hchars : name.toList with
    | nil => exact hname.1 (String.toList_eq_nil_iff.mp hchars)
    | cons c cs =>
      rw [hchars] at htail
      have hc : IsNameChar c := hname.2 c (hchars ▸ List.mem_cons_self)
      rw [(List.cons.inj htail).1] at hc
      exact absurd hc (by decide)

/-- A run of elements ends at the closing tag of the element they are in. -/
theorem xmlCharsAll_append_inj {es fs : List Element} {rest rest' : List Char}
    (hread : ∀ e ∈ es, IsReadable e) (hes : ∀ e ∈ es, IsNamed e) (hfs : ∀ f ∈ fs, IsNamed f)
    (h : xmlCharsAll es ++ '<' :: '/' :: rest = xmlCharsAll fs ++ '<' :: '/' :: rest') :
    filledAll es = filledAll fs ∧ rest = rest' := by
  induction es generalizing fs with
  | nil =>
    cases fs with
    | nil => exact ⟨rfl, (List.cons.inj (List.cons.inj h).2).2⟩
    | cons f fs =>
      rw [xmlCharsAll_cons_append] at h
      exact absurd h.symm ((hfs f List.mem_cons_self).xmlChars_ne _ _)
  | cons e es ih =>
    cases fs with
    | nil =>
      rw [xmlCharsAll_cons_append] at h
      exact absurd h ((hes e List.mem_cons_self).xmlChars_ne _ _)
    | cons f fs =>
      rw [xmlCharsAll_cons_append, xmlCharsAll_cons_append] at h
      obtain ⟨hfirst, hmore⟩ := hread e List.mem_cons_self f (hfs f List.mem_cons_self) _ _ h
      obtain ⟨hothers, hrest⟩ := ih (fun e he => hread e (List.mem_cons_of_mem _ he))
        (fun e he => hes e (List.mem_cons_of_mem _ he))
        (fun f hf => hfs f (List.mem_cons_of_mem _ hf)) hmore
      exact ⟨by rw [filledAll, filledAll, hfirst, hothers], hrest⟩

/-- Two elements with the same contents up to absent data, neither of them closed in place, are the
same up to absent data. -/
theorem filled_congr {name : String} {attrs : List (String × String)} {cdata cdata' : Option String}
    {children children' : List Element} (hopen : (cdata.isNone && children.isEmpty) = false)
    (hopen' : (cdata'.isNone && children'.isEmpty) = false)
    (hcdata : cdata.getD "" = cdata'.getD "")
    (hchildren : filledAll children = filledAll children') :
    filled ⟨name, attrs, cdata, children⟩ = filled ⟨name, attrs, cdata', children'⟩ := by
  have hempty : children.isEmpty = children'.isEmpty := by
    rw [← isEmpty_filledAll, hchildren, isEmpty_filledAll]
  rw [filled, filled, hchildren, hcdata, hempty]
  rw [hempty] at hopen
  cases hany : children'.isEmpty with
  | false => rfl
  | true =>
    rw [hany, Bool.and_true, Option.isNone_eq_false_iff, Option.isSome_iff_exists] at hopen hopen'
    obtain ⟨text, rfl⟩ := hopen
    obtain ⟨text', rfl⟩ := hopen'
    rw [Option.getD_some, Option.getD_some] at hcdata
    rw [hcdata]

/-- By induction on the tree: the parts of an element are read one after the other, and where the
children begin they are read by the induction hypothesis. -/
theorem IsNamed.isReadable {e : Element} (he : IsNamed e) : IsReadable e := by
  induction he with
  | @intro name attrs cdata children hname hkeys hchildren ih =>
    intro f hf rest rest' h
    cases hf with
    | @intro name' attrs' cdata' children' hname' hkeys' hchildren' =>
      rw [xmlChars_append, xmlChars_append] at h
      cases hclosed : cdata.isNone && children.isEmpty <;>
        cases hclosed' : cdata'.isNone && children'.isEmpty <;>
        simp only [hclosed, hclosed', if_true, if_false, Bool.false_eq_true] at h
      · obtain ⟨rfl, rfl, hbody⟩ := openChars_append_inj hname hname' hkeys hkeys' (by simp)
          (by simp) h
        obtain ⟨tail, htail⟩ := exists_xmlCharsAll children ('/' :: (name.toList ++ '>' :: rest))
        obtain ⟨tail', htail'⟩ :=
          exists_xmlCharsAll children' ('/' :: (name.toList ++ '>' :: rest'))
        rw [htail, htail'] at hbody
        obtain ⟨hcdata, htails⟩ := escape_append_inj (by decide) (List.cons.inj hbody).2
        rw [← htails, ← htail] at htail'
        obtain ⟨hall, hend⟩ := xmlCharsAll_append_inj ih hchildren hchildren' htail'.symm
        exact ⟨filled_congr hclosed hclosed' hcdata hall,
          (List.cons.inj (List.append_cancel_left hend)).2⟩
      · obtain ⟨-, -, hmark⟩ := openChars_append_inj hname hname' hkeys hkeys' (by simp) (by simp) h
        exact absurd (List.cons.inj hmark).1 (by decide)
      · obtain ⟨-, -, hmark⟩ := openChars_append_inj hname hname' hkeys hkeys' (by simp) (by simp) h
        exact absurd (List.cons.inj hmark).1 (by decide)
      · obtain ⟨rfl, rfl, hmarks⟩ := openChars_append_inj hname hname' hkeys hkeys' (by simp)
          (by simp) h
        simp only [Bool.and_eq_true, Option.isNone_iff_eq_none, List.isEmpty_iff]
          at hclosed hclosed'
        rw [hclosed.1, hclosed.2, hclosed'.1, hclosed'.2]
        exact ⟨rfl, (List.cons.inj (List.cons.inj hmarks).2).2⟩

theorem toXml_eq_iff {e f : Element} : e.toXml = f.toXml ↔ e.xmlChars = f.xmlChars := by
  rw [← String.toList_inj, toList_toXml, toList_toXml]

/-- Two elements with proper names have the same text exactly when they differ at most in empty data
that is absent beside children, whatever their values and their data hold. This is so because a text
is written without any mark of the syntax, and with ampersands only where an entity starts. -/
theorem text_determines_element :
    (∀ e f : Element, IsNamed e → IsNamed f → (e.toXml = f.toXml ↔ e.filled = f.filled)) ∧
      Function.Injective escape ∧
      ∀ text : String,
        (∀ mark ∈ ['<', '>', '\'', '"'], mark ∉ (escape text).toList) ∧
          ∀ before after : List Char, (escape text).toList = before ++ '&' :: after →
            ∃ entity ∈ entities, entity.toList <+: '&' :: after := by
  refine ⟨fun e f he hf => ⟨fun h => ?_, fun h => ?_⟩, escape_injective, fun text => ⟨?_, ?_⟩⟩
  · have hchars : e.xmlChars ++ [] = f.xmlChars ++ [] := by rw [toXml_eq_iff.mp h]
    exact (he.isReadable f hf [] [] hchars).1
  · rw [toXml_eq_iff, ← xmlChars_filled e, h, xmlChars_filled]
  · intro mark hmark
    rw [toList_escape]
    exact notMem_escapeChars hmark text.toList
  · intro before after h
    rw [toList_escape] at h
    exact escapeChars_ampersand h

/-- A value with a quote in it makes no second attribute, and data that is absent beside a child is
read as data that is empty. -/
theorem quoted_value_is_one_attribute :
    IsNamed ⟨"a", [("to", "b' id='7")], none, [⟨"c", [], none, []⟩]⟩ ∧
      IsNamed ⟨"a", [("to", "b"), ("id", "7")], none, [⟨"c", [], none, []⟩]⟩ ∧
      IsNamed ⟨"a", [("to", "b"), ("id", "7")], some "", [⟨"c", [], none, []⟩]⟩ ∧
      toXml ⟨"a", [("to", "b' id='7")], none, [⟨"c", [], none, []⟩]⟩ ≠
        toXml ⟨"a", [("to", "b"), ("id", "7")], none, [⟨"c", [], none, []⟩]⟩ ∧
      toXml ⟨"a", [("to", "b"), ("id", "7")], none, [⟨"c", [], none, []⟩]⟩ =
        toXml ⟨"a", [("to", "b"), ("id", "7")], some "", [⟨"c", [], none, []⟩]⟩ ∧
      '<' ∉ (escape "<&").toList ∧
      (escape "<&").toList = "&lt;".toList ++ '&' :: "amp;".toList ∧
      ∃ entity ∈ entities, entity.toList <+: '&' :: "amp;".toList := by
  have hinner : ∀ child ∈ [(⟨"c", [], none, []⟩ : Element)], IsNamed child := by
    intro child hchild
    rw [List.mem_singleton.mp hchild]
    exact .intro (by decide) (by decide) (by simp)
  have hquoted : IsNamed ⟨"a", [("to", "b' id='7")], none, [⟨"c", [], none, []⟩]⟩ :=
    .intro (by decide) (by decide) hinner
  have habsent : IsNamed ⟨"a", [("to", "b"), ("id", "7")], none, [⟨"c", [], none, []⟩]⟩ :=
    .intro (by decide) (by decide) hinner
  have hempty : IsNamed ⟨"a", [("to", "b"), ("id", "7")], some "", [⟨"c", [], none, []⟩]⟩ :=
    .intro (by decide) (by decide) hinner
  obtain ⟨hsame, -, htext⟩ := text_determines_element
  refine ⟨hquoted, habsent, hempty, ?_, (hsame _ _ habsent hempty).mpr rfl,
    (htext "<&").1 '<' (by decide), by decide,
    (htext "<&").2 "&lt;".toList "amp;".toList (by decide)⟩
  intro h
  exact absurd ((hsame _ _ hquoted habsent).mp h) (by decide)

end Federation.Element
