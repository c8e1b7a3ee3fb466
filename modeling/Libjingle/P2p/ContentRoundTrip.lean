import Libjingle.P2p.ContentMessages

/-! The round trip of a description in Jingle, from the elements that are written to the
contents, transports and groups that are read. -/

namespace Libjingle

open SessionDescription SessionMessages XmlElement

namespace Parsers

variable {Description Translator : Type}

theorem elements_writeJingleAction {msg : SessionMessages.SessionMessage}
    {elems : List XmlElement} : (writeJingleAction msg elems).elements = elems := by
  simp only [writeJingleAction, addXmlAttrIfNonEmpty, elements_addXmlChildren]
  split_ifs <;> simp [withNs]

section Content

variable {name : String} {childElems : List XmlElement}

theorem name_writeJingleContent :
    (writeJingleContent name childElems).name = qnJingleContent := by
  simp [writeJingleContent]

theorem elements_writeJingleContent :
    (writeJingleContent name childElems).elements = childElems := by
  simp [writeJingleContent]

theorem requireXmlAttr_writeJingleContent :
    (writeJingleContent name childElems).requireXmlAttr qnJingleContentName = .ok name := by
  have hattr : (writeJingleContent name childElems).attr? qnJingleContentName = some name := by
    simp [writeJingleContent, attr?_setAttr, qnJingleContentName, qnCreator]
  simp [requireXmlAttr, hasAttr, attr, hattr]

end Content

/-- The parsers of the two sides read back what they write of a description. -/
structure RoundTripping (w r : Parsers Description Translator)
    (contents : List (ContentInfo Description)) (tinfos : List TransportInfo) : Prop where
  content : ∀ c ∈ contents, ∀ p, w.content c.type = some p → ∀ elem,
    p.writeContent .jingle c.description = .ok elem →
      elem.name = ⟨c.type, lnDescription⟩ ∧
      ∃ q, r.content c.type = some q ∧ q.parseContent .jingle elem = .ok c.description
  transport : ∀ t ∈ tinfos, ∀ p, w.transport t.description.transportType = some p →
    ∀ translator, w.translator t.contentName = some translator → ∀ elem,
      p.writeTransportDescription t.description translator = .ok elem →
        elem.name = ⟨t.description.transportType, lnTransport⟩ ∧
        ∃ q, r.transport t.description.transportType = some q ∧
          q.parseTransportDescription elem (r.translator t.contentName) = .ok t.description

variable {w r : Parsers Description Translator} {contents : List (ContentInfo Description)}
  {tinfos : List TransportInfo} {groups : List ContentGroup}

theorem mem_kept {c : ContentInfo Description} :
    c ∈ kept contents ↔ c ∈ contents ∧ c.rejected = false := by
  simp [kept]

theorem writeContentInfo_ok {c : ContentInfo Description} {elem : XmlElement}
    (h : w.writeContentInfo .jingle c = .ok elem) :
    ∃ p, w.content c.type = some p ∧ p.writeContent .jingle c.description = .ok elem := by
  unfold writeContentInfo at h
  cases hp : w.content c.type with
  | none => simp [hp] at h
  | some p => exact ⟨p, rfl, by simpa [hp] using h⟩

theorem parserToWrite_ok {type name : String} {p : TransportParser Translator}
    {translator : Translator} (h : w.parserToWrite type name = .ok (p, translator)) :
    w.transport type = some p ∧ w.translator name = some translator := by
  unfold parserToWrite at h
  cases hp : w.transport type with
  | none => simp [hp] at h
  | some p' =>
    cases ht : w.translator name with
    | none => simp [hp, ht] at h
    | some t =>
      simp only [hp, ht, Except.ok.injEq, Prod.mk.injEq] at h
      simp [h]

theorem writeJingleTransportInfo_ok {t : TransportInfo} {elem : XmlElement}
    (h : w.writeJingleTransportInfo t = .ok elem) :
    ∃ p translator, w.transport t.description.transportType = some p ∧
      w.translator t.contentName = some translator ∧
      p.writeTransportDescription t.description translator = .ok elem := by
  obtain ⟨⟨p, translator⟩, hparser, hwrite⟩ := Fallible.bind_ok.mp h
  obtain ⟨hp, ht⟩ := parserToWrite_ok hparser
  exact ⟨p, translator, hp, ht, hwrite⟩

theorem writeJinglePair_ok {c : ContentInfo Description} {pairElem : XmlElement}
    (h : w.writeJinglePair tinfos c = .ok pairElem) :
    ∃ tinfo elem transElem, getTransportInfoByContentName tinfos c.name = some tinfo ∧
      w.writeContentInfo .jingle c = .ok elem ∧
      w.writeJingleTransportInfo tinfo = .ok transElem ∧
      pairElem = writeJingleContent c.name [elem, transElem] := by
  unfold writeJinglePair at h
  cases ht : getTransportInfoByContentName tinfos c.name with
  | none => simp [ht] at h
  | some tinfo =>
    simp only [ht] at h
    obtain ⟨elem, helem, h⟩ := Fallible.bind_ok.mp h
    obtain ⟨transElem, htrans, h⟩ := Fallible.bind_ok.mp h
    exact ⟨tinfo, elem, transElem, rfl, helem, htrans, (Except.ok.inj h).symm⟩

theorem parseJingleContentPair_write (hpair : RoundTripping w r contents tinfos)
    {c : ContentInfo Description} (hc : c ∈ kept contents) {pairElem : XmlElement}
    (h : w.writeJinglePair tinfos c = .ok pairElem) :
    r.parseJingleContentPair pairElem = .ok c := by
  obtain ⟨hmem, hkept⟩ := mem_kept.mp hc
  obtain ⟨tinfo, elem, transElem, -, helem, -, rfl⟩ := writeJinglePair_ok h
  obtain ⟨p, hp, hwrite⟩ := writeContentInfo_ok helem
  obtain ⟨hname, q, hq, hparse⟩ := hpair.content c hmem p hp elem hwrite
  have htype : parseContentType (writeJingleContent c.name [elem, transElem]) =
      .ok (c.type, elem) := by
    simp [parseContentType, requireXmlChild, getXmlChild, elements_writeJingleContent, hname,
      bind, Except.bind, pure, Except.pure]
  have hinfo : r.parseContentInfo .jingle c.name c.type elem = .ok c := by
    simp only [parseContentInfo, hq, hparse, bind, Except.bind, pure, Except.pure, ← hkept]
  simp only [parseJingleContentPair, requireXmlAttr_writeJingleContent, htype]
  exact hinfo

theorem findContentInfoByName_of_mem {c : ContentInfo Description} (h : c ∈ contents) :
    ∃ found, findContentInfoByName contents c.name = some found ∧ found.name = c.name := by
  unfold findContentInfoByName
  cases hfind : contents.find? (fun x => x.name = c.name) with
  | none =>
    have hne := List.find?_eq_none.mp hfind c h
    simp at hne
  | some found => exact ⟨found, rfl, by simpa using List.find?_some hfind⟩

theorem getTransportInfo_some {name : String} {tinfo : TransportInfo}
    (h : getTransportInfoByContentName tinfos name = some tinfo) :
    tinfo ∈ tinfos ∧ tinfo.contentName = name :=
  ⟨List.mem_of_find?_eq_some h, by simpa using List.find?_some h⟩

theorem parseJingleTransportPair_write (hpair : RoundTripping w r contents tinfos)
    {c : ContentInfo Description} (hc : c ∈ kept contents) {pairElem : XmlElement}
    (h : w.writeJinglePair tinfos c = .ok pairElem) :
    ∃ tinfo, r.parseJingleTransportPair (kept contents) pairElem = .ok tinfo ∧
      getTransportInfoByContentName tinfos c.name = some tinfo := by
  obtain ⟨hmem, -⟩ := mem_kept.mp hc
  obtain ⟨tinfo, elem, transElem, htinfo, helem, htrans, rfl⟩ := writeJinglePair_ok h
  obtain ⟨htmem, htname⟩ := getTransportInfo_some htinfo
  obtain ⟨p, hp, hwrite⟩ := writeContentInfo_ok helem
  obtain ⟨hname, -⟩ := hpair.content c hmem p hp elem hwrite
  obtain ⟨p, translator, hp, htr, hwrite⟩ := writeJingleTransportInfo_ok htrans
  obtain ⟨htype, q, hq, hparse⟩ := hpair.transport tinfo htmem p hp translator htr transElem hwrite
  obtain ⟨found, hfound, hfname⟩ := findContentInfoByName_of_mem hc
  have hchild : (writeJingleContent c.name [elem, transElem]).requireXmlChild lnTransport =
      .ok transElem := by
    simp [requireXmlChild, getXmlChild, elements_writeJingleContent, hname, htype, lnDescription,
      lnTransport]
  have hinfo : r.parseJingleTransportInfo transElem found.name = .ok tinfo := by
    rw [hfname, ← htname]
    simp only [parseJingleTransportInfo, parserToParse, htype, hq, bind, Except.bind, hparse]
    rfl
  refine ⟨tinfo, ?_, htinfo⟩
  simp only [parseJingleTransportPair, requireXmlAttr_writeJingleContent, bind, Except.bind,
    hfound, hchild]
  exact hinfo

section Group

variable {names : List String}

/-- The only group that is ever written: the bundle of some contents. -/
def bundleElem (names : List String) : XmlElement :=
  (setAttr { name := qnJingleDraftGroup } qnJingleDraftGroupType groupTypeBundle).addXmlChildren
    (names.map (setAttr { name := qnJingleContent } qnJingleContentName))

theorem writeJingleGroupInfo_eq : writeJingleGroupInfo contents groups =
    if groups = [] then [] else [bundleElem (contents.map (·.name))] := by
  simp [writeJingleGroupInfo, bundleElem, Function.comp_def]

theorem name_bundleElem : (bundleElem names).name = qnJingleDraftGroup := by
  simp [bundleElem]

theorem parseJingleGroupInfo_bundleElem : parseJingleGroupInfo (bundleElem names) =
    .ok (names.foldl ContentGroup.addContentName { semantics := groupTypeBundle }) := by
  have htype : (bundleElem names).requireXmlAttr qnJingleDraftGroupType = .ok groupTypeBundle := by
    simp [requireXmlAttr, hasAttr, attr, bundleElem, attr?_setAttr]
  have hnamed : (bundleElem names).allNamed qnJingleContent =
      names.map (setAttr { name := qnJingleContent } qnJingleContentName) := by
    simp [allNamed, bundleElem]
  have hnames : (names.map (setAttr { name := qnJingleContent } qnJingleContentName)).mapM
      (requireXmlAttr · qnJingleContentName) = .ok names := by
    rw [Fallible.mapM_ok, List.forall₂_map_left_iff, List.forall₂_same]
    simp [requireXmlAttr, hasAttr, attr, attr?_setAttr]
  simp only [parseJingleGroupInfo, htype, hnamed, hnames, bind, Except.bind, pure, Except.pure]

end Group

def SameGroup (g h : ContentGroup) : Prop :=
  g.semantics = h.semantics ∧ ∀ name, name ∈ g.contentNames ↔ name ∈ h.contentNames

/-- The first group that is a bundle has the content. -/
def InBundle (groups : List ContentGroup) (name : String) : Prop :=
  ∃ g, getGroupByName groups groupTypeBundle = some g ∧ name ∈ g.contentNames

theorem inBundle_congr {others : List ContentGroup} (h : List.Forall₂ SameGroup groups others)
    (name : String) : InBundle groups name ↔ InBundle others name := by
  induction h with
  | nil => exact Iff.rfl
  | @cons g o _ _ hgo _ ih =>
    by_cases hbundle : g.semantics = groupTypeBundle
    · have ho : o.semantics = groupTypeBundle := hgo.1 ▸ hbundle
      simpa [InBundle, getGroupByName, hbundle, ho] using hgo.2 name
    · have ho : o.semantics ≠ groupTypeBundle := hgo.1 ▸ hbundle
      simpa [InBundle, getGroupByName, hbundle, ho] using ih

/-- A message that says what the description does: the contents that are not rejected, the
transport of each, and the groups. -/
structure Describes (message : ContentMessage Description)
    (contents : List (ContentInfo Description)) (tinfos : List TransportInfo)
    (groups : List ContentGroup) : Prop where
  contents_eq : message.contents = kept contents
  transports_found : List.Forall₂
    (fun c tinfo => getTransportInfoByContentName tinfos c.name = some tinfo)
    (kept contents) message.transports
  groups_same : List.Forall₂ SameGroup groups message.groups
  bundle_iff : ∀ name, InBundle message.groups name ↔ InBundle groups name

/-- What the parsers make of the elements that were written. The groups are always
those of the elements, whatever they were before. -/
theorem parseContentMessage_write (hpair : RoundTripping w r contents tinfos)
    {protocol : SignalingProtocol} (hprotocol : protocol ≠ .gingle) {elems : List XmlElement}
    (h : w.writeContentMessage protocol contents tinfos groups = .ok elems)
    (msg : SessionMessages.SessionMessage) {readAs : SignalingProtocol}
    (hreadAs : readAs ≠ .gingle) :
    ∃ transports, r.parseContentMessage readAs (writeJingleAction msg elems) true = .ok
        { contents := kept contents
          transports
          groups := if groups = [] then [] else
            [(contents.map (·.name)).foldl ContentGroup.addContentName
              { semantics := groupTypeBundle }] } ∧
      List.Forall₂ (fun c tinfo => getTransportInfoByContentName tinfos c.name = some tinfo)
        (kept contents) transports := by
  simp only [writeContentMessage, hprotocol, if_false] at h
  obtain ⟨contentElems, hcontents, h⟩ := Fallible.bind_ok.mp h
  have helems : contentElems ++ writeJingleGroupInfo contents groups = elems := Except.ok.inj h
  have hname : ∀ e ∈ contentElems, e.name = qnJingleContent := by
    refine Fallible.forall_of_mapM hcontents fun c _ e he => ?_
    obtain ⟨_, _, _, -, -, -, rfl⟩ := writeJinglePair_ok he
    exact name_writeJingleContent
  have hnamed : (writeJingleAction msg elems).allNamed qnJingleContent = contentElems := by
    simp only [allNamed, elements_writeJingleAction, ← helems, List.filter_append,
      writeJingleGroupInfo_eq]
    rw [List.filter_eq_self.mpr (by simpa using hname)]
    split_ifs <;> simp [name_bundleElem, qnJingleContent, qnJingleDraftGroup, nsJingle,
      nsJingleDraft]
  have hgroups : (writeJingleAction msg elems).allNamed qnJingleDraftGroup =
      if groups = [] then [] else [bundleElem (contents.map (·.name))] := by
    simp only [allNamed, elements_writeJingleAction, ← helems, List.filter_append,
      writeJingleGroupInfo_eq]
    have hno : contentElems.filter (·.name = qnJingleDraftGroup) = [] := by
      rw [List.filter_eq_nil_iff]
      intro e he
      simp [hname e he, qnJingleContent, qnJingleDraftGroup, nsJingle, nsJingleDraft]
    rw [hno]
    split_ifs <;> simp [name_bundleElem]
  have hread : r.parseJingleContentInfos (writeJingleAction msg elems) = .ok (kept contents) := by
    obtain ⟨cs, hcs, hsame⟩ := Fallible.mapM_read (P := Eq) hcontents fun c hc e he =>
      ⟨c, parseJingleContentPair_write hpair hc he, rfl⟩
    rw [List.forall₂_eq_eq_eq] at hsame
    rw [parseJingleContentInfos, hnamed, hcs, hsame]
  have hreadGroups : parseJingleGroupInfos (writeJingleAction msg elems) =
      .ok (if groups = [] then [] else [(contents.map (·.name)).foldl
        ContentGroup.addContentName { semantics := groupTypeBundle }]) := by
    rw [parseJingleGroupInfos, hgroups]
    split_ifs
    · rfl
    · simp only [List.mapM_cons, parseJingleGroupInfo_bundleElem, bind, Except.bind,
        List.mapM_nil, pure, Except.pure]
  obtain ⟨transports, htransports, hfound⟩ := Fallible.mapM_read hcontents fun c hc e he =>
    parseJingleTransportPair_write hpair hc he
  have hreadTransports :
      r.parseJingleTransportInfos (writeJingleAction msg elems) (kept contents) =
        .ok transports := by
    rw [parseJingleTransportInfos, hnamed, htransports]
  refine ⟨transports, ?_, hfound⟩
  simp only [parseContentMessage, hreadAs, if_false, hread, hreadGroups, bind, Except.bind,
    if_true, hreadTransports]
  rfl

/-- The groups are written as they are. -/
def OneBundle (contents : List (ContentInfo Description)) (groups : List ContentGroup) : Prop :=
  groups = [] ∨ ∃ g, groups = [g] ∧ g.semantics = groupTypeBundle ∧
    ∀ name, name ∈ g.contentNames ↔ name ∈ contents.map (·.name)

theorem same_written_iff : List.Forall₂ SameGroup groups (if groups = [] then [] else
    [(contents.map (·.name)).foldl ContentGroup.addContentName
      { semantics := groupTypeBundle }]) ↔ OneBundle contents groups := by
  cases groups with
  | nil => simp [OneBundle]
  | cons g rest =>
    rw [if_neg (by simp), List.forall₂_cons]
    cases rest with
    | nil => simp [OneBundle, SameGroup, ContentGroup.mem_foldl_addContentName]
    | cons g' rest => simp [OneBundle]

inductive Carrier
  | initiate
  | accept

def write (w : Parsers Description Translator) : Carrier → SignalingProtocol →
    List (ContentInfo Description) → List TransportInfo → List ContentGroup →
      Except String (List XmlElement)
  | .initiate => w.writeSessionInitiate
  | .accept => w.writeSessionAccept

def read (r : Parsers Description Translator) : Carrier → SignalingProtocol → XmlElement →
    Except String (ContentMessage Description)
  | .initiate => r.parseSessionInitiate
  | .accept => r.parseSessionAccept

/-- Groups are lost unless there is but a bundle of all the contents. -/
theorem describes_iff (carrier : Carrier) (hpair : RoundTripping w r contents tinfos)
    (protocol : SignalingProtocol) {readAs : SignalingProtocol} (hprotocol : protocol ≠ .gingle)
    (hreadAs : readAs ≠ .gingle) {elems : List XmlElement}
    (h : w.write carrier protocol contents tinfos groups = .ok elems)
    (msg : SessionMessages.SessionMessage) :
    (∃ message, r.read carrier readAs (writeJingleAction msg elems) = .ok message ∧
      Describes message contents tinfos groups) ↔ OneBundle contents groups := by
  have hwrite : w.writeContentMessage protocol contents tinfos groups = .ok elems := by
    cases carrier <;> exact h
  have hreader : r.read carrier readAs (writeJingleAction msg elems) =
      r.parseContentMessage readAs (writeJingleAction msg elems) true := by
    cases carrier <;> rfl
  obtain ⟨transports, hparse, hfound⟩ :=
    parseContentMessage_write hpair hprotocol hwrite msg hreadAs
  rw [hreader, hparse]
  constructor
  · rintro ⟨message, hmessage, hdescribes⟩
    cases hmessage
    exact same_written_iff.mp hdescribes.groups_same
  · intro hone
    have hsame := same_written_iff.mpr hone
    exact ⟨_, rfl, rfl, hfound, hsame, fun name => (inBundle_congr hsame name).symm⟩

section Example

def textParser (type : String) : ContentParser String where
  parseContent _ elem := .ok elem.bodyText
  writeContent _ text := .ok (XmlElement.setBodyText { name := ⟨type, lnDescription⟩ } text)

/-- The transports of initiates and accepts have no candidates. -/
def emptyParser : TransportParser Unit where
  parseTransportDescription elem _ := .ok { transportType := elem.name.ns }
  writeTransportDescription tdesc _ := .ok (withNs ⟨tdesc.transportType, lnTransport⟩)
  parseGingleCandidate _ _ := .error "candidate missing required attribute"
  writeGingleCandidate _ _ := .error "Cannot write candidate because of unknown component."

def textParsers : Parsers String Unit where
  content type := some (textParser type)
  transport type := if type = nsGingleP2p then some emptyParser else none
  translator _ := some ()

def audioAndVideo : List (ContentInfo String) :=
  [⟨cnAudio, nsJingleRtp, false, "isac"⟩, ⟨cnVideo, nsJingleRtp, false, "vp8"⟩]

def audioAndVideoTransports : List TransportInfo :=
  [⟨cnAudio, { transportType := nsGingleP2p }⟩, ⟨cnVideo, { transportType := nsGingleP2p }⟩]

theorem textParsers_roundTripping :
    RoundTripping textParsers textParsers audioAndVideo audioAndVideoTransports where
  content := by
    intro c hc p hp elem helem
    cases hp
    cases helem
    simp only [audioAndVideo, List.mem_cons, List.not_mem_nil, or_false] at hc
    rcases hc with rfl | rfl <;> exact ⟨rfl, _, rfl, rfl⟩
  transport := by
    intro t ht p hp translator _ elem helem
    simp only [audioAndVideoTransports, List.mem_cons, List.not_mem_nil, or_false] at ht
    rcases ht with rfl | rfl <;> cases hp <;> cases helem <;> exact ⟨rfl, _, rfl, rfl⟩

def initiateMessage : SessionMessages.SessionMessage :=
  { protocol := .jingle, type := .sessionInitiate, sid := "1", initiator := "a@example.com/phone" }

def bundleOf (names : List String) : ContentGroup :=
  names.foldl ContentGroup.addContentName { semantics := groupTypeBundle }

theorem describes_iff_audio_video :
    ∃ elems, textParsers.write .initiate .jingle audioAndVideo audioAndVideoTransports
        [bundleOf [cnAudio, cnVideo]] = .ok elems ∧
      ((∃ message, textParsers.read .initiate .jingle (writeJingleAction initiateMessage elems) =
        .ok message ∧ Describes message audioAndVideo audioAndVideoTransports
          [bundleOf [cnAudio, cnVideo]]) ↔
        OneBundle audioAndVideo [bundleOf [cnAudio, cnVideo]]) :=
  ⟨_, rfl, describes_iff .initiate textParsers_roundTripping .jingle (by decide)
    (by decide) rfl initiateMessage⟩

/-- The other side takes the video to be bundled as well. -/
theorem bundle_grows :
    ∃ elems message, textParsers.write .initiate .jingle audioAndVideo audioAndVideoTransports
        [bundleOf [cnAudio]] = .ok elems ∧
      textParsers.read .initiate .jingle (writeJingleAction initiateMessage elems) = .ok message ∧
      InBundle message.groups cnVideo ∧ ¬ InBundle [bundleOf [cnAudio]] cnVideo :=
  ⟨_, _, rfl, rfl, ⟨_, rfl, by decide⟩, by
    rintro ⟨g, hg, hmem⟩
    cases hg
    exact absurd hmem (by decide)⟩

end Example

end Parsers

end Libjingle
