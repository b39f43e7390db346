import LineQuery.Proofs.Files.Listing
import LineQuery.Proofs.Store.Degrading
import LineQuery.Proofs.Store.History

/-! # Listing a store

A store is listed by the names in its folder: what has the extension of artifact files and else
the digits of a fingerprint, in either case, is listed under that fingerprint, whatever it is. The
file of a fingerprint, which is where a resolve looks, has the small digits. So a listing has the
files of fingerprints and nothing else exactly if all names that spell a fingerprint are those of
its file and stand for files.
-/

namespace LineQuery.Store

open LineQuery.Digest (Fingerprint)
open LineQuery.Files (Disk Entry Path)
open LineQuery.Files.Disk (GainsFolders LosesBelow)

namespace ArtifactStore

variable {s : ArtifactStore} {d d' : Disk} {key : Fingerprint} {name other : String} {e : Entry}

/-! ## Names that spell fingerprints -/

/-- A name spells a fingerprint: it is that of its file, with digits of either case. -/
def Spells (name : String) (key : Fingerprint) : Prop :=
  ∃ stem : String, name = stem ++ extension ∧ stem.toList.map Char.toLower = key.toText.toList

/-- What is in front of the extension of a name. -/
theorem ofList_take_append_extension (stem : String) :
    String.ofList
      ((stem ++ extension).toList.take ((stem ++ extension).length - extension.length)) = stem := by
  rw [String.length_append, Nat.add_sub_cancel, ← String.length_toList, String.toList_append,
    List.take_left, String.ofList_toList]

/-- A name is read as a fingerprint exactly if it spells it. -/
theorem key?_eq_some_iff : key? name = some key ↔ Spells name key := by
  unfold key? Spells
  simp only [← Fingerprint.read?_eq_some_iff]
  constructor
  · intro h
    split at h
    · rename_i hends
      obtain ⟨stem, rfl⟩ := Files.endsWith_iff.mp hends
      rw [ofList_take_append_extension] at h
      exact ⟨stem, rfl, h⟩
    · exact nomatch h
  · rintro ⟨stem, rfl, hread⟩
    rw [if_pos (Files.endsWith_iff.mpr ⟨stem, rfl⟩), ofList_take_append_extension, hread]

theorem spells_fileName (key : Fingerprint) : Spells (fileName key) key := by
  refine ⟨key.toText, rfl, ?_⟩
  rw [Fingerprint.toText, Digest.hexText, String.toList_ofList]
  exact Digest.map_toLower_of_readHex? (Digest.readHex?_hexChars _)

/-! ## Histories -/

theorem distinct_publish (h : d.Distinct) {image : Text.Bytes}
    (hpublish : s.publish d key image = .ok d') : d'.Distinct := by
  obtain ⟨written, hwrite, hrename⟩ := Files.exists_ok_of_bind hpublish
  exact (h.write hwrite).rename hrename

variable {α : Type}

theorem distinct_store (h : d.Distinct) (s : ArtifactStore) (c : Codec α) (key : Fingerprint)
    (v : α) : (s.store c d key v).2.Distinct := by
  have hmade := h.makeFolders s.folder s.location
  rcases s.store_made_or_published c d key v with hstored | ⟨d', hstored, hpublish⟩
  · rwa [hstored]
  · rw [hstored]
    exact distinct_publish hmade hpublish

theorem distinct_clear (h : d.Distinct) (s : ArtifactStore) : (s.clear d).2.Distinct := by
  rcases s.clear_cases d with hsame | hremoved
  · rwa [hsame]
  · rw [hremoved]
    exact h.removeTree s.folder s.location

/-- Whatever is done with a store, no path gets two entries. -/
theorem distinct_after {ε : Type} (h : d.Distinct) (c : Codec α) (event : Event ε α) :
    (event.after c d).Distinct := by
  obtain ⟨s, deed⟩ := event
  cases deed with
  | resolve build key =>
    change (s.resolve c build d key).2.Distinct
    rcases s.resolve_leaves_or_stores c build d key with hsame | ⟨v, hstored⟩
    · rwa [hsame]
    · rw [hstored]
      exact distinct_store h s c key v
  | clear => exact distinct_clear h s
  | delete key =>
    change (s.afterDeleting d key).Distinct
    rcases s.afterDeleting_cases d key with hsame | hremoved
    · rwa [hsame]
    · exact h.removeFile hremoved
  | cut key length =>
    change (s.afterCutting d key length).Distinct
    rcases s.afterCutting_cases d key length with hsame | ⟨bytes, -, hwrite⟩
    · rwa [hsame]
    · exact h.write hwrite

theorem distinct_afterAll {ε : Type} (h : d.Distinct) (c : Codec α) (events : List (Event ε α)) :
    (afterAll c d events).Distinct := by
  induction events generalizing d with
  | nil => exact h
  | cons event events ih => exact ih (distinct_after h c event)

/-! ## What is listed -/

/-- What is listed of a name in the folder of a store and what stands under it. -/
def listed? (entry : String × Entry) : Option (String × Fingerprint × Nat) :=
  (key? entry.1).map fun key => (entry.1, key, entrySize entry.2)

theorem listed?_eq_some_iff {size : Nat} :
    listed? (other, e) = some (name, key, size) ↔
      other = name ∧ Spells name key ∧ size = entrySize e := by
  rw [listed?, Option.map_eq_some_iff]
  constructor
  · rintro ⟨found, hkey, hentry⟩
    cases hentry
    exact ⟨rfl, key?_eq_some_iff.mp hkey, rfl⟩
  · rintro ⟨rfl, hspells, rfl⟩
    exact ⟨key, key?_eq_some_iff.mpr hspells, rfl⟩

/-- The order in which names are listed. -/
def listedBefore (a b : String × Fingerprint × Nat) : Bool := a.2.1.le b.2.1

/-- A store is listed from the names in its folder. -/
theorem entries_eq (hroot : d.hasFolder s.folder s.location = true) :
    s.entries d =
      .ok ((((d.children s.root).filterMap listed?).mergeSort listedBefore).map Prod.snd) := by
  have hlocate : d.locate s.folder s.location = .ok (s.root, .folder) := by
    unfold Disk.hasFolder at hroot
    split at hroot
    · rename_i path hfound
      rw [hfound, (Files.Disk.find?_of_locate hfound).1]
      rfl
    · exact nomatch hroot
  have hpresent : s.isPresent d = true := by
    rw [isPresent, Disk.has, hlocate]
    rfl
  have hlist : d.list s.folder s.location = .ok (d.children s.root) := by
    rw [Disk.list, hlocate]
    rfl
  have hlisted : ((d.children s.root).filterMap listed?).map Prod.snd =
      (d.children s.root).filterMap fun entry =>
        (key? entry.1).map fun key => (key, entrySize entry.2) := by
    rw [List.map_filterMap]
    refine List.filterMap_congr fun entry _ => ?_
    rw [listed?, Option.map_map]
    rfl
  -- the order of what is listed looks at the fingerprints only
  have hsorted : (((d.children s.root).filterMap listed?).mergeSort listedBefore).map Prod.snd =
      (((d.children s.root).filterMap listed?).map Prod.snd).mergeSort fun a b => a.1.le b.1 :=
    List.map_mergeSort fun _ _ _ _ => rfl
  rw [entries, if_pos hpresent, hsorted, hlisted]
  simp only [hlist]

/-- What a listing of a store has been read from: for each line of it the name in the folder. -/
structure ReadFrom (s : ArtifactStore) (d : Disk) (found : List (String × Fingerprint × Nat)) :
    Prop where
  listing : s.entries d = .ok (found.map Prod.snd)
  ascending : (found.map Prod.snd).Pairwise fun a b => a.1.bytes.toList ≤ b.1.bytes.toList
  /-- No name is listed twice. -/
  nodup : (found.map Prod.fst).Nodup
  /-- A name is listed if it spells a fingerprint, with the size of what stands under it. -/
  mem_iff : ∀ name key size, (name, key, size) ∈ found ↔
    Spells name key ∧ ∃ e, d.find? (s.root ++ [name]) = some e ∧ size = entrySize e

theorem pairwise_mergeSort_listedBefore (found : List (String × Fingerprint × Nat)) :
    ((found.mergeSort listedBefore).map Prod.snd).Pairwise fun a b =>
      a.1.bytes.toList ≤ b.1.bytes.toList := by
  have htrans : ∀ a b c, listedBefore a b → listedBefore b c → listedBefore a c := by
    intro a b c hab hbc
    exact decide_eq_true (List.le_trans (of_decide_eq_true hab) (of_decide_eq_true hbc))
  have htotal : ∀ a b, listedBefore a b || listedBefore b a := by
    intro a b
    rcases List.le_total a.2.1.bytes.toList b.2.1.bytes.toList with hab | hba
    · exact Bool.or_eq_true_iff.mpr (.inl (decide_eq_true hab))
    · exact Bool.or_eq_true_iff.mpr (.inr (decide_eq_true hba))
  rw [List.pairwise_map]
  exact (List.pairwise_mergeSort htrans htotal found).imp of_decide_eq_true

theorem exists_readFrom (hd : d.Distinct) (hroot : d.hasFolder s.folder s.location = true) :
    ∃ found, s.ReadFrom d found := by
  let unsorted := (d.children s.root).filterMap listed?
  have hperm : (unsorted.mergeSort listedBefore).Perm unsorted := List.mergeSort_perm _ _
  refine ⟨_, entries_eq hroot, pairwise_mergeSort_listedBefore _, ?_, ?_⟩
  · rw [(hperm.map Prod.fst).nodup_iff, List.Nodup, List.pairwise_map, List.pairwise_filterMap]
    refine (List.pairwise_map.mp (hd.nodup_children s.root)).imp ?_
    rintro ⟨name, e⟩ ⟨other, e'⟩ hne _ hlisted _ hlisted'
    obtain ⟨rfl, -⟩ := listed?_eq_some_iff.mp hlisted
    obtain ⟨rfl, -⟩ := listed?_eq_some_iff.mp hlisted'
    exact hne
  · intro name key size
    rw [hperm.mem_iff, List.mem_filterMap]
    constructor
    · rintro ⟨⟨other, e⟩, hmem, hlisted⟩
      obtain ⟨rfl, hspells, hsize⟩ := listed?_eq_some_iff.mp hlisted
      exact ⟨hspells, e, hd.mem_children_iff.mp hmem, hsize⟩
    · rintro ⟨hspells, e, hstands, hsize⟩
      exact ⟨(name, e), hd.mem_children_iff.mpr hstands,
        listed?_eq_some_iff.mpr ⟨rfl, hspells, hsize⟩⟩

/-! ## Listings that match the store -/

/-- A listing matches a store: it ascends strictly, and has a fingerprint exactly if a file stands
in the place of its file, with the size of that. -/
structure Matches (s : ArtifactStore) (d : Disk) (listing : List (Fingerprint × Nat)) : Prop where
  ascending : listing.Pairwise fun a b => a.1.bytes.toList < b.1.bytes.toList
  mem_iff : ∀ key size, (key, size) ∈ listing ↔
    ∃ bytes, d.find? (filePlace s.root key) = some (.file bytes) ∧ size = bytes.length

/-- What spells a fingerprint in the folder of a store is the file of the fingerprint. -/
def Plain (root : Path) (d : Disk) : Prop :=
  ∀ name key e, d.find? (root ++ [name]) = some e → Spells name key →
    name = fileName key ∧ ∃ bytes, e = .file bytes

namespace ReadFrom

variable {found : List (String × Fingerprint × Nat)}

/-- Where a listing matches, a name that spells a fingerprint is listed, and so is that of its file;
these are one line. -/
theorem plain_of_matches (h : s.ReadFrom d found) (hmatches : s.Matches d (found.map Prod.snd)) :
    Plain s.root d := by
  intro name key e hstands hspells
  have hlisted : (name, key, entrySize e) ∈ found :=
    (h.mem_iff _ _ _).mpr ⟨hspells, e, hstands, rfl⟩
  obtain ⟨bytes, hfile, -⟩ := (hmatches.mem_iff key _).mp (List.mem_map_of_mem hlisted)
  have hown : (fileName key, key, bytes.length) ∈ found :=
    (h.mem_iff _ _ _).mpr ⟨spells_fileName key, _, hfile, rfl⟩
  have honce : (found.map (·.2.1)).Nodup := by
    refine List.pairwise_map.mpr ((List.pairwise_map.mp hmatches.ascending).imp ?_)
    intro a b hlt heq
    rw [heq] at hlt
    exact List.lt_irrefl _ hlt
  have hline := List.inj_on_of_nodup_map honce hlisted hown rfl
  obtain ⟨rfl, -⟩ := Prod.mk.inj hline
  exact ⟨rfl, bytes, Option.some.inj (hstands.symm.trans hfile)⟩

/-- Where only files of fingerprints spell some, lines for one fingerprint would have one name. -/
theorem matches_of_plain (h : s.ReadFrom d found) (hplain : Plain s.root d) :
    s.Matches d (found.map Prod.snd) := by
  have hname : ∀ line ∈ found, line.1 = fileName line.2.1 := by
    rintro ⟨name, key, size⟩ hline
    obtain ⟨hspells, e, hstands, -⟩ := (h.mem_iff _ _ _).mp hline
    exact (hplain name key e hstands hspells).1
  constructor
  · have hboth := (List.pairwise_map.mp h.ascending).and (List.pairwise_map.mp h.nodup)
    refine List.pairwise_map.mpr (hboth.imp_of_mem ?_)
    rintro ⟨name, key, size⟩ ⟨other, key', size'⟩ hline hline' ⟨hle, hne⟩
    by_contra hlt
    have hbytes := List.le_antisymm hle (List.not_lt.mp hlt)
    obtain rfl : key = key' := Fingerprint.eq_of_toList_bytes hbytes
    exact hne ((hname _ hline).trans (hname _ hline').symm)
  · intro key size
    constructor
    · intro hmem
      obtain ⟨⟨name, _, _⟩, hline, hpair⟩ := List.mem_map.mp hmem
      obtain ⟨rfl, rfl⟩ := Prod.mk.inj hpair
      obtain ⟨hspells, e, hstands, rfl⟩ := (h.mem_iff _ _ _).mp hline
      obtain ⟨rfl, bytes, rfl⟩ := hplain name _ e hstands hspells
      exact ⟨bytes, hstands, rfl⟩
    · rintro ⟨bytes, hfile, rfl⟩
      exact List.mem_map_of_mem
        ((h.mem_iff (fileName key) _ _).mpr ⟨spells_fileName key, _, hfile, rfl⟩)

end ReadFrom

/-- A listing is read from the names in the folder of the store: each that spells a fingerprint is
listed once, and nothing else is, in ascending order. The listing matches the store exactly if all
these are files of fingerprints. -/
theorem listing_follows_names (hd : d.Distinct) (hroot : d.hasFolder s.folder s.location = true) :
    ∃ found, s.ReadFrom d found ∧ (s.Matches d (found.map Prod.snd) ↔ Plain s.root d) := by
  obtain ⟨found, hfound⟩ := exists_readFrom hd hroot
  exact ⟨found, hfound, hfound.plain_of_matches, hfound.matches_of_plain⟩

/-- After a text has been stored beside a file with another name. -/
theorem listing_follows_names_after_resolve :
    let s : ArtifactStore := ⟨[], "c", true, "0.1.0"⟩
    let key : Fingerprint := ⟨Vector.replicate 32 7⟩
    let stored : Event Unit String := ⟨s, .resolve (fun _ => .ok "built") key⟩
    let d := afterAll string ⟨[(["c"], .folder), (["c", "notes.sqa"], .file [110])]⟩ [stored]
    d.Distinct ∧ d.hasFolder s.folder s.location = true ∧
      ∃ found, s.ReadFrom d found ∧ (s.Matches d (found.map Prod.snd) ↔ Plain s.root d) := by
  intro s key stored d
  have hd : d.Distinct := distinct_afterAll (by decide +kernel) string [stored]
  have hroot : d.hasFolder s.folder s.location = true := by decide +kernel
  exact ⟨hd, hroot, listing_follows_names hd hroot⟩

/-- A folder and a file with large digits in its name are listed, although no resolve can read the
one or looks for the other. -/
theorem listing_has_no_artifacts :
    let s : ArtifactStore := ⟨[], "c", true, "0.1.0"⟩
    let key : Fingerprint := ⟨Vector.replicate 32 7⟩
    let other : Fingerprint := ⟨Vector.replicate 32 0xab⟩
    let large := String.ofList (other.toText.toList.map Char.toUpper) ++ extension
    let d : Disk :=
      ⟨[(["c"], .folder), (["c", fileName key], .folder), (["c", large], .file [49])]⟩
    d.Distinct ∧ s.entries d = .ok [(key, folderSize), (other, 1)] ∧
      d.find? (filePlace s.root key) = some .folder ∧
      d.find? (filePlace s.root other) = none ∧
      ¬ s.Matches d [(key, folderSize), (other, 1)] := by
  intro s key other large d
  have hroot : d.hasFolder s.folder s.location = true := by decide +kernel
  have hlisted : (d.children s.root).filterMap listed? =
      [(fileName key, key, folderSize), (large, other, 1)] := by decide +kernel
  have hsorted : [(fileName key, key, folderSize), (large, other, 1)].Pairwise
      fun a b => listedBefore a b = true := by decide +kernel
  have hnone : d.find? (filePlace s.root other) = none := by decide +kernel
  refine ⟨by decide +kernel, ?_, by decide +kernel, hnone, ?_⟩
  · rw [entries_eq hroot, hlisted, List.mergeSort_of_pairwise hsorted]
    rfl
  · intro hmatches
    obtain ⟨bytes, hfile, -⟩ := (hmatches.mem_iff other 1).mp (by simp)
    exact nomatch hnone.symm.trans hfile

/-! ## Stores that nothing else is put into -/

namespace Plain

variable {root top : Path} {places : List Path}

/-- Folders that are made on the way to the store are not in it. -/
theorem of_gainsFolders (h : Plain root d) (hplaces : ∀ path ∈ places, path <+: root)
    (hgains : GainsFolders places d d') : Plain root d' := by
  intro name key e hstands hspells
  rcases hgains (root ++ [name]) with hsame | ⟨hmem, -, -⟩
  · exact h name key e (hsame ▸ hstands) hspells
  · have hlength := (hplaces _ hmem).length_le
    rw [List.length_append, List.length_singleton] at hlength
    omega

theorem of_losesBelow (h : Plain root d) (hloses : LosesBelow top d d') : Plain root d' := by
  intro name key e hstands hspells
  rcases hloses (root ++ [name]) with hsame | ⟨-, hnone⟩
  · exact h name key e (hsame ▸ hstands) hspells
  · exact nomatch hnone.symm.trans hstands

theorem set (h : Plain root d) {e : Entry}
    (hname : ∀ key, Spells name key → name = fileName key ∧ ∃ bytes, e = .file bytes) :
    Plain root (d.set (root ++ [name]) e) := by
  intro other key e' hstands hspells
  by_cases hother : other = name
  · obtain rfl := hother
    rw [Files.Disk.find?_set_self (List.concat_ne_nil _ _)] at hstands
    obtain rfl := Option.some.inj hstands
    exact hname key hspells
  · have hne : root ++ [other] ≠ root ++ [name] := fun heq =>
      hother (List.singleton_inj.mp (List.append_cancel_left heq))
    rw [Files.Disk.find?_set_of_ne hne] at hstands
    exact h other key e' hstands hspells

theorem set_file (h : Plain root d) (key : Fingerprint) (bytes : Text.Bytes) :
    Plain root (d.set (filePlace root key) (.file bytes)) := by
  refine h.set fun other hspells => ⟨?_, bytes, rfl⟩
  have hother := key?_eq_some_iff.mpr hspells
  rw [key?_eq_some_iff.mpr (spells_fileName key)] at hother
  rw [Option.some.inj hother]

theorem publish (h : Plain s.root d) {image : Text.Bytes}
    (hpublish : s.publish d key image = .ok d') : Plain s.root d' := by
  obtain ⟨i, hprivate, hfree⟩ := s.exists_privatePath d
  rw [ArtifactStore.publish, hprivate] at hpublish
  obtain ⟨written, hwrite, hrename⟩ := Files.exists_ok_of_bind hpublish
  obtain ⟨-, rfl⟩ := eq_of_write_privatePath hfree hwrite
  obtain ⟨e, hmoved, rfl, -⟩ := Files.Disk.eq_of_rename_within (isName_privateName i) hrename
  have hfile : some (.file image) = some e :=
    (Files.Disk.find?_set_self (List.concat_ne_nil _ _) _).symm.trans hmoved
  obtain rfl := Option.some.inj hfile
  -- while it is private, the file has a name that spells nothing
  have hwritten : Plain s.root (d.set (s.root ++ [privateName i]) (.file image)) := by
    refine h.set fun other hspells => ?_
    obtain ⟨stem, hstem, -⟩ := hspells
    exact absurd hstem.symm (append_extension_ne_privateName stem i)
  rw [place_artifactPath]
  exact (hwritten.of_losesBelow (Files.Disk.losesBelow_erase _ _)).set_file key image

theorem store (h : Plain s.root d) (hfolders : ∀ path ∈ s.folders, path <+: s.root)
    (c : Codec α) (key : Fingerprint) (v : α) : Plain s.root (s.store c d key v).2 := by
  have hgains := Files.Disk.gainsFolders_makeFolders d s.folder s.location
  have hmade := h.of_gainsFolders hfolders hgains
  rcases s.store_made_or_published c d key v with hstored | ⟨d', hstored, hpublish⟩
  · rwa [hstored]
  · rw [hstored]
    exact hmade.publish hpublish

/-- Whatever is done with a store, nothing else comes into its folder. -/
theorem after {ε : Type} {event : Event ε α} (h : Plain event.store.root d)
    (hfolders : ∀ path ∈ event.store.folders, path <+: event.store.root) (c : Codec α) :
    Plain event.store.root (event.after c d) := by
  obtain ⟨s, deed⟩ := event
  cases deed with
  | resolve build key =>
    change Plain s.root (s.resolve c build d key).2
    rcases s.resolve_leaves_or_stores c build d key with hsame | ⟨v, hstored⟩
    · rwa [hsame]
    · rw [hstored]
      exact h.store hfolders c key v
  | clear => exact h.of_losesBelow (s.losesBelow_clear d)
  | delete key => exact h.of_losesBelow (s.losesBelow_afterDeleting d key)
  | cut key length =>
    change Plain s.root (s.afterCutting d key length)
    rcases s.afterCutting_cases d key length with hsame | ⟨bytes, -, hwrite⟩
    · rwa [hsame]
    · rcases Files.Disk.eq_of_write hwrite with ⟨hset, -⟩ | ⟨hsame, -⟩
      · rw [hset, place_artifactPath]
        exact h.set_file key _
      · rwa [hsame]

theorem afterAll {ε : Type} {events : List (Event ε α)} (h : Plain root d)
    (hevents : ∀ event ∈ events,
      event.store.root = root ∧ ∀ path ∈ event.store.folders, path <+: root)
    (c : Codec α) : Plain root (afterAll c d events) := by
  induction events generalizing d with
  | nil => exact h
  | cons event events ih =>
    obtain ⟨⟨rfl, hfolders⟩, hevents⟩ := List.forall_mem_cons.mp hevents
    exact ih (h.after hfolders c) hevents

end Plain

/-- A store that only stores have written to and damaged is listed as it is, after every history. -/
theorem exists_matches_afterAll {ε : Type} {events : List (Event ε α)} (hd : d.Distinct)
    (hplain : Plain s.root d)
    (hevents : ∀ event ∈ events,
      event.store.root = s.root ∧ ∀ path ∈ event.store.folders, path <+: s.root)
    (c : Codec α) (hroot : (afterAll c d events).hasFolder s.folder s.location = true) :
    ∃ listing, s.entries (afterAll c d events) = .ok listing ∧
      s.Matches (afterAll c d events) listing := by
  obtain ⟨found, hfound⟩ := exists_readFrom (distinct_afterAll hd c events) hroot
  exact ⟨_, hfound.listing, hfound.matches_of_plain (hplain.afterAll hevents c)⟩

end ArtifactStore

end LineQuery.Store
