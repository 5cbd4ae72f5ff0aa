import NotebookCell.Proofs.Edit.Patch
import NotebookCell.Proofs.Syntax.Nodes

/-!
# Edits of the parts of a node

The parts of a node stand apart from each other. A round of edits of which each is felt in one part
only leaves the text between the parts alone, and what it leaves of a part is found from the edits of
that part.
-/

namespace NotebookCell

namespace Edit

/-- The two rounds of edits do the same to every slot of a range. -/
def Agree (lo hi : Nat) (a b : List Edit) : Prop :=
  ∀ k, lo ≤ k → k < hi → ∀ held, content a k held = content b k held

variable {lo hi lo' hi' : Nat} {a a' b b' : List Edit}

theorem agree_refl (lo hi : Nat) (a : List Edit) : Agree lo hi a a := fun _ _ _ _ => rfl

theorem Agree.append (h : Agree lo hi a a') (h' : Agree lo hi b b') :
    Agree lo hi (a ++ b) (a' ++ b') := by
  intro k hlo hhi held
  rw [content_append, content_append, h k hlo hhi, h' k hlo hhi]

theorem Agree.patch_eq (h : Agree lo hi a b) (source : MappedText) :
    patch source a lo hi = patch source b lo hi := patch_congr source h

theorem Agree.mono (h : Agree lo hi a b) (hlo : lo ≤ lo') (hhi : hi' ≤ hi) : Agree lo' hi' a b := by
  intro k hlo' hhi' held
  exact h k (by omega) (by omega) held

theorem Agree.trans {c : List Edit} (h : Agree lo hi a b) (h' : Agree lo hi b c) :
    Agree lo hi a c := by
  intro k hlo hhi held
  rw [h k hlo hhi, h' k hlo hhi]

theorem AllWithin.agree_nil (h : AllWithin lo' hi' a) (hapart : hi ≤ lo' ∨ hi' ≤ lo) :
    Agree lo hi a [] := by
  intro k hlo hhi held
  exact h.content_outside (by omega) held

/-- Rounds of edits in places apart from each other may change places. -/
theorem AllWithin.agree_comm {la ha lb hb : Nat} (hin : AllWithin la ha a) (hin' : AllWithin lb hb b)
    (hapart : ha ≤ lb ∨ hb ≤ la) : Agree lo hi (a ++ b) (b ++ a) := by
  intro k _ _ held
  rw [content_append, content_append]
  by_cases hk : lb ≤ k ∧ k < hb
  · rw [hin.content_outside (by omega) held, hin.content_outside (by omega)]
  · rw [hin'.content_outside (by omega) held, hin'.content_outside (by omega)]

theorem patch_around (source : MappedText) (edits : List Edit) (front back : Fragment)
    (h : lo < hi) :
    patch source (edits ++ [.insertBefore lo front, .insertAfter hi back]) lo hi =
      front.toMapped ++ patch source edits lo hi ++ back.toMapped := by
  have hsplit : edits ++ [.insertBefore lo front, .insertAfter hi back] =
      edits ++ [.insertBefore lo front] ++ [.insertAfter hi back] := by
    rw [List.append_assoc]
    rfl
  rw [hsplit, patch_insertAfter source _ back h, patch_insertBefore source edits front h]

/-- Two ranges side by side, each with its own edits. -/
theorem patch_split (source : MappedText) {mid : Nat} (hlo : lo ≤ mid) (hhi : mid ≤ hi)
    (hfront : AllWithin lo mid a) (hback : AllWithin mid hi b) :
    patch source (a ++ b) lo hi = patch source a lo mid ++ patch source b mid hi := by
  have hagree : Agree lo mid (a ++ b) (a ++ []) :=
    (agree_refl lo mid a).append (hback.agree_nil (Or.inl (Nat.le_refl mid)))
  have hagree' : Agree mid hi (a ++ b) ([] ++ b) :=
    (hfront.agree_nil (Or.inr (Nat.le_refl mid))).append (agree_refl mid hi b)
  rw [← patch_append source _ hlo hhi, hagree.patch_eq source, hagree'.patch_eq source,
    List.append_nil, List.nil_append]

theorem patch_replaced (source : MappedText) {start stop : Nat} (hlo : lo ≤ start)
    (hlt : start < stop) (hhi : stop ≤ hi) (chars : List Char) :
    patch source [.replace start stop (.plain chars)] lo hi =
      source.segment lo start ++ source.inPlace start stop chars ++ source.segment stop hi := by
  have hreplace : AllWithin start stop [.replace start stop (.plain chars)] := by
    apply allWithin_singleton
    simp only [Within]
    omega
  have hfront : patch source ([] ++ [.replace start stop (.plain chars)]) lo hi =
      patch source [] lo start ++ patch source [.replace start stop (.plain chars)] start hi :=
    patch_split source hlo (Nat.le_trans (Nat.le_of_lt hlt) hhi) (allWithin_nil lo start)
      (hreplace.mono (Nat.le_refl start) hhi)
  have hback : patch source ([.replace start stop (.plain chars)] ++ []) start hi =
      patch source [.replace start stop (.plain chars)] start stop ++ patch source [] stop hi :=
    patch_split source (Nat.le_of_lt hlt) hhi hreplace (allWithin_nil stop hi)
  have hmiddle := patch_replace source [] (.plain chars) hlt
  rw [List.append_nil] at hback
  rw [List.nil_append] at hfront hmiddle
  rw [hfront, hback, hmiddle, patch_nil source hlo, patch_nil source hhi, source.inPlace_eq hlt,
    List.append_assoc]
  rfl

/-- A range of which the first part is replaced, while edits in its middle part are made before and
after, and a text is put behind the middle. -/
theorem patch_framed (source : MappedText) {start stop : Nat} (hlo : lo < start)
    (hlt : start < stop) (hhi : stop ≤ hi) {inner outer : List Edit}
    (hinner : AllWithin start stop inner) (houter : AllWithin start stop outer)
    (opening : List Char) (closing : Fragment) :
    patch source
        (inner ++ .replace lo start (.plain opening) :: (outer ++ [.insertAfter stop closing])) lo hi =
      source.inPlace lo start opening ++ patch source (inner ++ outer) start stop ++
        closing.toMapped ++ source.segment stop hi := by
  have hopen : AllWithin lo start [.replace lo start (.plain opening)] := by
    apply allWithin_singleton
    simp only [Within]
    omega
  have hclose : AllWithin start stop [.insertAfter stop closing] := by
    apply allWithin_singleton
    simp only [Within]
    omega
  have hmiddle : AllWithin start stop (inner ++ (outer ++ [.insertAfter stop closing])) :=
    hinner.append (houter.append hclose)
  -- the replaced part is edited first just as well
  have hagree : Agree lo hi
      (inner ++ .replace lo start (.plain opening) :: (outer ++ [.insertAfter stop closing]))
      ([.replace lo start (.plain opening)] ++ (inner ++ (outer ++ [.insertAfter stop closing]))) := by
    have hswap := (hinner.agree_comm hopen (Or.inr (Nat.le_refl start))).append
      (agree_refl lo hi (outer ++ [.insertAfter stop closing]))
    rw [List.append_assoc, List.append_assoc] at hswap
    exact hswap
  have hback : patch source (inner ++ (outer ++ [.insertAfter stop closing]) ++ []) start hi =
      patch source (inner ++ (outer ++ [.insertAfter stop closing])) start stop ++
        patch source [] stop hi :=
    patch_split source (Nat.le_of_lt hlt) hhi hmiddle (allWithin_nil stop hi)
  have hclosed := patch_insertAfter source (inner ++ outer) closing hlt
  have hopened := patch_replaced source (Nat.le_refl lo) hlo (Nat.le_refl start) opening
  rw [List.append_nil, patch_nil source hhi] at hback
  rw [List.append_assoc] at hclosed
  rw [source.segment_self, source.segment_self, List.nil_append, List.append_nil] at hopened
  rw [hagree.patch_eq source, patch_split source (Nat.le_of_lt hlo) (by omega : start ≤ hi) hopen
    (hmiddle.mono (Nat.le_refl start) hhi), hopened, hback, hclosed]
  simp only [List.append_assoc]

/-- A range out of which a part is cut, before edits are made behind the cut. -/
theorem patch_cut (source : MappedText) {start stop : Nat} (hlo : lo ≤ start) (hlt : start < stop)
    (hhi : stop ≤ hi) {inner : List Edit} (hinner : AllWithin stop hi inner) :
    patch source (.replace start stop (.plain []) :: inner) lo hi =
      source.segment lo start ++ patch source inner stop hi := by
  have hcut : AllWithin lo stop [.replace start stop (.plain [])] := by
    apply allWithin_singleton
    simp only [Within]
    omega
  have hgone := patch_replaced source hlo hlt (Nat.le_refl stop) []
  have hnone : source.inPlace start stop [] = [] := rfl
  rw [hnone, source.segment_self, List.append_nil, List.append_nil] at hgone
  have hsplit := patch_split source (Nat.le_trans hlo (Nat.le_of_lt hlt)) hhi hcut hinner
  rw [hgone] at hsplit
  exact hsplit

end Edit

namespace Document

variable {doc : Document} {lo hi : Nat} {items : List SyntaxTree}

def InNode (doc : Document) (node : SyntaxTree) (edits : List Edit) : Prop :=
  Edit.AllWithin (doc.first node) (doc.past node) edits

theorem Covers.around_within {node : SyntaxTree} (h : doc.Covers node) (front back : Fragment) :
    doc.InNode node [.insertBefore (doc.first node) front, .insertAfter (doc.past node) back] := by
  have hlt := h.2.2
  intro edit he
  rcases List.mem_cons.mp he with rfl | he
  · simp only [Edit.Within]
    omega
  · rw [List.mem_singleton.mp he]
    simp only [Edit.Within]
    omega

/-- Every edit is felt in one of the items only, and what an item feels are its own edits. -/
structure Over (doc : Document) (items : List SyntaxTree) (own : SyntaxTree → List Edit)
    (edits : List Edit) : Prop where
  within : ∀ edit ∈ edits, ∃ item ∈ items, edit.Within (doc.first item) (doc.past item)
  agree : ∀ item ∈ items, Edit.Agree (doc.first item) (doc.past item) edits (own item)

theorem Over.append {own own' : SyntaxTree → List Edit} {edits edits' : List Edit}
    (h : doc.Over items own edits) (h' : doc.Over items own' edits') :
    doc.Over items (fun item => own item ++ own' item) (edits ++ edits') where
  within := by
    intro edit he
    rcases List.mem_append.mp he with he | he
    · exact h.within edit he
    · exact h'.within edit he
  agree item hi := (h.agree item hi).append (h'.agree item hi)

theorem Over.allWithin {own : SyntaxTree → List Edit} {edits : List Edit}
    (h : doc.Over items own edits) (hrow : doc.Row lo hi items) : Edit.AllWithin lo hi edits := by
  intro edit he
  obtain ⟨item, hitem, hwithin⟩ := h.within edit he
  obtain ⟨_, hlo, hhi⟩ := hrow.mem hitem
  exact hwithin.mono hlo hhi

theorem over_flatMap {own : SyntaxTree → List Edit} (hrow : doc.Row lo hi items)
    (hown : ∀ item ∈ items, doc.InNode item (own item)) :
    doc.Over items own (items.flatMap own) := by
  induction items generalizing lo with
  | nil =>
    constructor
    · intro edit he
      cases he
    · intro item hi
      cases hi
  | cons head items ih =>
    obtain ⟨hcov, hlo, hrest⟩ := hrow
    have hhead : doc.InNode head (own head) := hown head List.mem_cons_self
    have htail := ih hrest fun item hi => hown item (List.mem_cons_of_mem head hi)
    rw [List.flatMap_cons]
    constructor
    · intro edit he
      rcases List.mem_append.mp he with he | he
      · exact ⟨head, List.mem_cons_self, hhead edit he⟩
      · obtain ⟨item, hitem, hwithin⟩ := htail.within edit he
        exact ⟨item, List.mem_cons_of_mem head hitem, hwithin⟩
    · intro item hitem
      rcases List.mem_cons.mp hitem with rfl | hitem
      · have hquiet : Edit.Agree (doc.first item) (doc.past item) (items.flatMap own) [] :=
          (htail.allWithin hrest).agree_nil (Or.inl (Nat.le_refl (doc.past item)))
        have happend := (Edit.agree_refl (doc.first item) (doc.past item) (own item)).append hquiet
        rw [List.append_nil] at happend
        exact happend
      · obtain ⟨_, hafter, _⟩ := hrest.mem hitem
        exact (hhead.agree_nil (Or.inr hafter)).append (htail.agree item hitem)

/-- Edits over the parts of every item are edits over all parts. -/
theorem over_nested {own edits : SyntaxTree → List Edit} {parts : SyntaxTree → List SyntaxTree}
    (hrow : doc.Row lo hi items)
    (hparts : ∀ item ∈ items, doc.Row (doc.first item) (doc.past item) (parts item))
    (hover : ∀ item ∈ items, doc.Over (parts item) own (edits item)) :
    doc.Over (items.flatMap parts) own (items.flatMap edits) := by
  have hitems : doc.Over items edits (items.flatMap edits) := by
    apply over_flatMap hrow
    intro item hi
    exact (hover item hi).allWithin (hparts item hi)
  constructor
  · intro edit he
    obtain ⟨item, hitem, he⟩ := List.mem_flatMap.mp he
    obtain ⟨part, hpart, hwithin⟩ := (hover item hitem).within edit he
    exact ⟨part, List.mem_flatMap.mpr ⟨item, hitem, hpart⟩, hwithin⟩
  · intro part hpart
    obtain ⟨item, hitem, hpart⟩ := List.mem_flatMap.mp hpart
    obtain ⟨_, hlo, hhi⟩ := (hparts item hitem).mem hpart
    exact ((hitems.agree item hitem).mono hlo hhi).trans ((hover item hitem).agree part hpart)

theorem over_single (hrow : doc.Row lo hi items) {node : SyntaxTree} (hnode : node ∈ items)
    {edits : List Edit} (hedits : doc.InNode node edits) :
    doc.Over items (fun item => if doc.first item = doc.first node then edits else []) edits where
  within edit he := ⟨node, hnode, hedits edit he⟩
  agree item hitem := by
    obtain ⟨⟨_, _, hlt⟩, _⟩ := hrow.mem hnode
    obtain ⟨⟨_, _, hlt'⟩, _⟩ := hrow.mem hitem
    by_cases hsame : doc.first item = doc.first node
    · rw [if_pos hsame]
      exact Edit.agree_refl _ _ _
    · rw [if_neg hsame]
      apply hedits.agree_nil
      rcases hrow.apart hitem hnode with rfl | hle | hle
      · exact absurd rfl hsame
      · exact Or.inl hle
      · exact Or.inr hle

theorem Over.congr {own own' : SyntaxTree → List Edit} {edits : List Edit}
    (h : doc.Over items own edits) (hsame : ∀ item ∈ items, own item = own' item) :
    doc.Over items own' edits where
  within := h.within
  agree := by
    intro item hi
    rw [← hsame item hi]
    exact h.agree item hi

theorem Over.content_outside {own : SyntaxTree → List Edit} {edits : List Edit}
    (h : doc.Over items own edits) {k : Nat}
    (hout : ∀ item ∈ items, k < doc.first item ∨ doc.past item ≤ k) (held : MappedText) :
    Edit.content edits k held = held := by
  have hquiet : ∀ edit ∈ edits, ∀ held, edit.onSlot k held = held := by
    intro edit he held
    obtain ⟨item, hitem, hwithin⟩ := h.within edit he
    exact hwithin.onSlot_outside (hout item hitem) held
  clear h hout
  induction edits generalizing held with
  | nil => rfl
  | cons edit edits ih =>
    rw [Edit.content_cons, hquiet edit List.mem_cons_self]
    exact ih held fun e he => hquiet e (List.mem_cons_of_mem edit he)

theorem Over.agree_flatMap {own : SyntaxTree → List Edit} {edits : List Edit}
    (h : doc.Over items own edits) (hrow : doc.Row lo hi items)
    (hown : ∀ item ∈ items, doc.InNode item (own item)) (lo' hi' : Nat) :
    Edit.Agree lo' hi' edits (items.flatMap own) := by
  have hflat := over_flatMap hrow hown
  intro k _ _ held
  by_cases hin : ∃ item ∈ items, doc.first item ≤ k ∧ k < doc.past item
  · obtain ⟨item, hitem, hlo, hhi⟩ := hin
    rw [h.agree item hitem k hlo hhi, hflat.agree item hitem k hlo hhi]
  · have hout : ∀ item ∈ items, k < doc.first item ∨ doc.past item ≤ k := by
      intro item hitem
      by_contra hno
      exact hin ⟨item, hitem, by omega⟩
    rw [h.content_outside hout, hflat.content_outside hout]

def pieces (doc : Document) (text : SyntaxTree → MappedText) (items : List SyntaxTree) :
    List Piece :=
  items.map fun item => { start := doc.first item, stop := doc.past item, text := text item }

theorem Row.pieces (h : doc.Row lo hi items) (text : SyntaxTree → MappedText) :
    Piece.Row lo hi (doc.pieces text items) := by
  induction items generalizing lo with
  | nil => exact h
  | cons head items ih =>
    obtain ⟨hcov, hlo, hrest⟩ := h
    exact ⟨hlo, Nat.le_of_lt hcov.2.2, ih hrest⟩

/-- Edits over some items make the splice of what they leave of each item. -/
theorem Over.patch_eq {own : SyntaxTree → List Edit} {edits : List Edit}
    (h : doc.Over items own edits) (hrow : doc.Row lo hi items) (source : MappedText)
    {text : SyntaxTree → MappedText}
    (htext : ∀ item ∈ items,
      Edit.patch source (own item) (doc.first item) (doc.past item) = text item) :
    Edit.patch source edits lo hi = Piece.splice source lo hi (doc.pieces text items) := by
  apply Piece.patch_eq_splice source edits (hrow.pieces text)
  · intro k _ _ hout held
    exact h.content_outside (fun item hi => hout _ (List.mem_map_of_mem hi)) held
  · intro piece hpiece
    obtain ⟨item, hitem, rfl⟩ := List.mem_map.mp hpiece
    rw [(h.agree item hitem).patch_eq source]
    exact htext item hitem

end Document

end NotebookCell
