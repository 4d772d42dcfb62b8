import ColorResolution.Proofs.Fetch.Scheme
import ColorResolution.Proofs.Text.Slices

/-!
# The permission to read files

Main statement: where files are not allowed, what a URL outside of the web is answered with does not depend on the file
system; where they are, it depends on one file at most. The fetcher of this file finds the scheme among the bytes of a
URL and cuts it out by offsets, and it recognizes the scheme of files a second time by the first seven bytes; it never
faults and answers as the other one.

Embedded beside `fetch` are `fetch` and `fetch_file` of a `NetworkFetcher` as they go by bytes.
-/
namespace ColorResolution

namespace Url

/-- What is answered is what is at one path. -/
structure ReadsOnly (url path : String) (answer : FileSystem → Except FetchError String) : Prop where
  oneFile : ∀ files others : FileSystem, files path = others path → answer files = answer others
  text : ∀ (files : FileSystem) (text : String), files path = .ok text.toUTF8 → answer files = .ok text
  unreadable : ∀ (files : FileSystem) (message : String), files path = .error message →
    answer files = .error (.io url message)
  noText : ∀ (files : FileSystem) (content : ByteArray), files path = .ok content →
    (∀ text : String, content ≠ text.toUTF8) → answer files = .error (.io url "stream did not contain valid UTF-8")

/-- The answers where files are not allowed. -/
structure Closed (url : String) (answer : FileSystem → Except FetchError String) : Prop where
  blind : ∀ files others, answer files = answer others
  forbidden : ¬ Marked url ∨ Of "file" url → ∀ files, answer files = .error (.forbidden url)
  unsupported : Marked url → ¬ Of "file" url → ∀ files, answer files = .error (.unsupportedScheme url)

/-- The answers where files are allowed. -/
structure Open (url : String) (answer : FileSystem → Except FetchError String) : Prop where
  unsupported : Marked url → ¬ Of "file" url → ∀ files, answer files = .error (.unsupportedScheme url)
  bare : ¬ Marked url → ReadsOnly url url answer
  behind : Of "file" url → ReadsOnly url (String.ofList (url.toList.drop 7)) answer

end Url

open Url

theorem readsOnly_mapError (url path : String) :
    ReadsOnly url path fun files => (readFileText files path).mapError (.io url) where
  oneFile files others same := by simp only [readFileText, same]
  text files text found := by
    have decoded : String.fromUTF8? text.toUTF8 = some text := Text.fromUTF8?_eq_some_iff.mpr rfl
    simp only [readFileText, found, decoded]
    rfl
  unreadable files message failed := by
    simp only [readFileText, failed]
    rfl
  noText files content found noText := by
    have undecoded : String.fromUTF8? content = none :=
      Option.eq_none_iff_forall_ne_some.mpr fun text decoded => noText text (Text.fromUTF8?_eq_some_iff.mp decoded)
    simp only [readFileText, found, undecoded]
    rfl

/-! ## Fetching by bytes -/

namespace Url

open Hex (bytes)

/-- The text in small letters. -/
def lower (s : String) : String := String.ofList (s.toList.map Char.toLower)

/-- The place of the first mark among bytes. -/
def findMark : List UInt8 → Option Nat
  | [] => none
  | b :: bs => if (bytes mark).isPrefixOf (b :: bs) then some 0 else (findMark bs).map (· + 1)

/-- What stands before the first mark and what behind it. -/
def splitBytes (url : String) : Except Hex.Fault (Option (String × String)) :=
  match findMark (bytes url.toList) with
  | none => return none
  | some i => return some (← Text.slice url 0 i, ← Text.slice url (i + 3) (bytes url.toList).length)

/-- The path in a URL: what follows the seven bytes of the scheme of files and its mark, if it begins with these. -/
def pathBytes (url : String) : Except Hex.Fault String :=
  match Text.slice url 0 7 with
  | .ok front => if lower front = "file://" then Text.slice url 7 (bytes url.toList).length else return url
  | .error _ => return url

def fetchFileBytes (config : FetchConfig) (files : FileSystem) (url : String) :
    Except Hex.Fault (Except FetchError String) :=
  if config.allowFiles then return (readFileText files (← pathBytes url)).mapError (.io url)
  else return .error (.forbidden url)

/-- Fetches the text behind a URL by its bytes. -/
def fetchBytes (config : FetchConfig) (transport : Transport) (files : FileSystem) (url : String) :
    Except Hex.Fault (Except FetchError String) := do
  match ← splitBytes url with
  | none => fetchFileBytes config files url
  | some (scheme, _) =>
    match lower scheme with
    | "http" => return transport url
    | "https" => return transport url
    | "file" => fetchFileBytes config files url
    | _ => return .error (.unsupportedScheme url)

section
variable {url path : String} {cs : List Char}

/-- No byte of another character is a colon. -/
theorem no_colon {c : Char} (other : c ≠ ':') : ∀ b ∈ String.utf8EncodeChar c, b ≠ 0x3A := by
  by_cases narrow : c.toNat ≤ 127
  · rw [Hex.encode_narrow narrow, List.forall_mem_singleton]
    intro same
    apply other
    rw [← Hex.ofUInt8_ofNat narrow, same]
    rfl
  · intro b member same
    obtain ⟨first, rest, encoded, large⟩ := Hex.encode_wide narrow
    obtain ⟨i, inside, here⟩ := List.getElem_of_mem member
    have begins : (String.utf8EncodeChar c)[i].IsUTF8FirstByte := by
      rw [here, same]
      decide
    obtain rfl : i = 0 := UInt8.isUTF8FirstByte_getElem_utf8EncodeChar.mp begins
    have isFirst : first = b := by simpa [encoded] using here
    rw [isFirst, same] at large
    exact absurd large (by decide)

theorem findMark_skip {skipped : List UInt8} (noColon : ∀ b ∈ skipped, b ≠ 0x3A) (bs : List UInt8) :
    findMark (skipped ++ bs) = (findMark bs).map (· + skipped.length) := by
  induction skipped with
  | nil => simp
  | cons b skipped ih =>
    obtain ⟨other, rest⟩ := List.forall_mem_cons.mp noColon
    have unmarked : (bytes mark).isPrefixOf (b :: (skipped ++ bs)) = false := by
      have first : bytes mark = 0x3A :: bytes ['/', '/'] := rfl
      simp [first, List.isPrefixOf, Ne.symm other]
    rw [List.cons_append, findMark, unmarked, ih rest, Option.map_map]
    rfl

/-- Among the bytes the first mark is found where it stands in the text. -/
theorem findMark_bytes (cs : List Char) :
    findMark (bytes cs) = (Route.scheme? cs).map fun scheme => (bytes scheme).length := by
  induction cs with
  | nil => rfl
  | cons c cs ih =>
    by_cases marked : mark <+: c :: cs
    · obtain ⟨rest, same⟩ := marked
      rw [← same, scheme?_mark]
      rfl
    · have skips : findMark (bytes (c :: cs)) = (findMark (bytes cs)).map (· + (String.utf8EncodeChar c).length) := by
        by_cases colon : c = ':'
        · subst colon
          have unmarked : (bytes mark).isPrefixOf (0x3A :: bytes cs) = false := by
            rw [Bool.eq_false_iff, ne_eq, List.isPrefixOf_iff_prefix]
            exact fun isPrefix => marked (Text.prefix_of_bytes isPrefix)
          change findMark (0x3A :: bytes cs) = _
          rw [findMark, unmarked]
          rfl
        · exact findMark_skip (no_colon colon) (bytes cs)
      rw [skips, ih, scheme?_cons marked, Option.map_map, Option.map_map]
      congr 1
      funext scheme
      change _ = (String.utf8EncodeChar c ++ bytes scheme).length
      rw [List.length_append, Nat.add_comm]
      rfl

/-- The scheme is cut out of its URL without a fault. -/
theorem splitBytes_of_scheme {scheme : List Char} (has : HasScheme url.toList scheme) :
    ∃ rest, splitBytes url = .ok (some (String.ofList scheme, rest)) := by
  obtain ⟨rest, split⟩ := has.marked
  have found : findMark (bytes url.toList) = some (bytes scheme).length := by
    rw [findMark_bytes, scheme?_eq_some_iff.mpr has, Option.map_some]
  have before : Text.slice url 0 (bytes scheme).length = .ok (String.ofList scheme) :=
    Text.slice_of_split [] scheme (mark ++ rest) (by rw [List.nil_append, ← List.append_assoc, split])
  have behind : Text.slice url ((bytes scheme).length + 3) (bytes url.toList).length = .ok (String.ofList rest) := by
    have whole : url.toList = scheme ++ mark ++ (rest ++ []) := by rw [List.append_nil, split]
    have slice := Text.slice_of_split (scheme ++ mark) rest [] whole
    rwa [split, Text.bytes_append, List.length_append] at slice
  refine ⟨String.ofList rest, ?_⟩
  rw [splitBytes, found]
  simp only [before, behind]
  rfl

theorem splitBytes_of_unmarked (unmarked : ¬ Marked url) : splitBytes url = .ok none := by
  rw [splitBytes, findMark_bytes, scheme?_eq_none_iff.mpr unmarked]
  rfl

theorem length_bytes_of_narrow (narrow : ∀ c ∈ cs, c.toNat ≤ 127) : (bytes cs).length = cs.length := by
  induction cs with
  | nil => rfl
  | cons c cs ih =>
    obtain ⟨first, rest⟩ := List.forall_mem_cons.mp narrow
    rw [bytes, List.flatMap_cons, Hex.encode_narrow first, List.singleton_append, List.length_cons, ← bytes, ih rest,
      List.length_cons]

/-- The seven bytes of the scheme of files and its mark are seven characters. -/
theorem narrow_of_file (lowered : cs.map Char.toLower = "file".toList ++ mark) : ∀ c ∈ cs, c.toNat ≤ 127 := by
  intro c member
  have small : c.toLower.toNat ≤ 127 := by
    have all : ∀ d ∈ ['f', 'i', 'l', 'e', ':', '/', '/'], d.toNat ≤ 127 := by simp
    have isOne : c.toLower ∈ "file".toList ++ mark := lowered ▸ List.mem_map_of_mem member
    exact all _ isOne
  refine Text.toLower_cases (p := fun c d => d.toNat ≤ 127 → c.toNat ≤ 127) (fun _ => id) ?_ c small
  intro n bound _ _
  have valid : n.isValidChar := .inl (by omega)
  rw [Char.toNat_ofNat, if_pos valid]
  omega

theorem pathBytes_of_path (isPath : PathOf url path) : pathBytes url = .ok path := by
  have file_iff : Of "file" url ↔ "file".toList ++ mark <+: url.toList.map Char.toLower := of_iff_prefix (by decide)
  cases isPath with
  | bare unmarked =>
    unfold pathBytes
    split
    next front cut =>
      have other : lower front ≠ "file://" := by
        intro same
        have lowered : front.toList.map Char.toLower = "file".toList ++ mark := by
          rw [← String.toList_ofList (l := front.toList.map _)]
          exact congrArg String.toList same
        refine unmarked (file_iff.mpr ?_).marked
        rw [← lowered]
        exact (Text.prefix_of_slice cut).map _
      rw [if_neg other]
      rfl
    · rfl
  | behind file =>
    obtain ⟨_, split⟩ := file_iff.mp file
    obtain ⟨front, rest, whole, lowered, _⟩ := List.append_eq_map_iff.mp split
    have size : front.length = 7 := by
      rw [← List.length_map (f := Char.toLower), lowered]
      rfl
    have width : (bytes front).length = 7 := (length_bytes_of_narrow (narrow_of_file lowered)).trans size
    have first : Text.slice url 0 7 = .ok (String.ofList front) := by
      have slice := Text.slice_of_split [] front rest whole
      rwa [List.nil_append, width] at slice
    have second : Text.slice url 7 (bytes url.toList).length = .ok (String.ofList rest) := by
      have slice := Text.slice_of_split front rest [] (by rw [List.append_nil, whole])
      rwa [← whole, width] at slice
    have isFile : lower (String.ofList front) = "file://" := by
      rw [lower, String.toList_ofList, lowered]
      rfl
    have dropped : url.toList.drop 7 = rest := by rw [whole, ← size, List.drop_left]
    rw [pathBytes, first, dropped]
    simp only [isFile, second, if_true]

theorem fetchFileBytes_of_path {config : FetchConfig} {transport : Transport} {files : FileSystem}
    (isPath : PathOf url path) : fetchFileBytes config files url = .ok (fetch config transport files url) := by
  rw [fetch_of_path isPath, fetchFileBytes]
  split
  · rw [pathBytes_of_path isPath]
    rfl
  · rfl

/-- By its bytes a URL is fetched without a fault, and with the same answer. -/
theorem fetchBytes_eq (config : FetchConfig) (transport : Transport) (files : FileSystem) (url : String) :
    fetchBytes config transport files url = .ok (fetch config transport files url) := by
  cases found : Route.scheme? url.toList with
  | none =>
    have unmarked := scheme?_eq_none_iff.mp found
    rw [fetchBytes, splitBytes_of_unmarked unmarked]
    exact fetchFileBytes_of_path (.bare unmarked)
  | some scheme =>
    have has := scheme?_eq_some_iff.mp found
    obtain ⟨rest, split⟩ := splitBytes_of_scheme has
    have named {name : String} : Of name url ↔ lower (String.ofList scheme) = name := by
      rw [of_iff has, lower, String.toList_ofList]
    rw [fetchBytes, split]
    change (match lower (String.ofList scheme) with | "http" => _ | "https" => _ | "file" => _ | _ => _) = _
    split
    next http =>
      rw [fetch_of_web (.inl (named.mpr http))]
      rfl
    next https =>
      rw [fetch_of_web (.inr (named.mpr https))]
      rfl
    next file => exact fetchFileBytes_of_path (.behind (named.mpr file))
    next http https file =>
      rw [fetch_of_foreign has.infix (by simpa [names, named] using ⟨http, https, file⟩)]
      rfl

end

end Url

/-! ## The permission -/

section
variable {config : FetchConfig} {url : String}

theorem foreign_of_not_web (noHttp : ¬ Of "http" url) (noHttps : ¬ Of "https" url) (noFile : ¬ Of "file" url) :
    ∀ name ∈ names, ¬ Of name url := by
  simpa [names] using ⟨noHttp, noHttps, noFile⟩

theorem closed_of_not_allowed (transport : Transport) (noHttp : ¬ Of "http" url) (noHttps : ¬ Of "https" url)
    (notAllowed : config.allowFiles = false) : Closed url fun files => fetch config transport files url := by
  have forbidden (here : ¬ Marked url ∨ Of "file" url) (files : FileSystem) :
      fetch config transport files url = .error (.forbidden url) := by
    obtain ⟨path, isPath⟩ := exists_path_iff.mpr here
    rw [fetch_of_path isPath, notAllowed]
    rfl
  have unsupported (marked : Marked url) (noFile : ¬ Of "file" url) (files : FileSystem) :
      fetch config transport files url = .error (.unsupportedScheme url) :=
    fetch_of_foreign marked (foreign_of_not_web noHttp noHttps noFile)
  refine ⟨fun files others => ?_, forbidden, unsupported⟩
  by_cases here : ¬ Marked url ∨ Of "file" url
  · exact (forbidden here files).trans (forbidden here others).symm
  · obtain ⟨marked, noFile⟩ := not_or.mp here
    rw [not_not] at marked
    exact (unsupported marked noFile files).trans (unsupported marked noFile others).symm

theorem open_of_allowed (transport : Transport) (noHttp : ¬ Of "http" url) (noHttps : ¬ Of "https" url)
    (allowed : config.allowFiles = true) : Open url fun files => fetch config transport files url := by
  have reads {path : String} (isPath : PathOf url path) :
      ReadsOnly url path fun files => fetch config transport files url := by
    have answers (files : FileSystem) :
        fetch config transport files url = (readFileText files path).mapError (.io url) := by
      rw [fetch_of_path isPath, if_pos allowed]
    simp only [answers]
    exact readsOnly_mapError url path
  exact {
    unsupported := fun marked noFile _ => fetch_of_foreign marked (foreign_of_not_web noHttp noHttps noFile)
    bare := fun unmarked => reads (.bare unmarked)
    behind := fun file => reads (.behind file) }

/-- Main statement: outside of the web the permission decides whether the file system is looked at; the scheme decides
at which path. By its bytes a URL is fetched without a fault, and with the same answer. -/
theorem permission_closes (config : FetchConfig) (transport : Transport) (url : String) :
    (¬ Of "http" url → ¬ Of "https" url →
      (config.allowFiles = false → Closed url fun files => fetch config transport files url) ∧
      (config.allowFiles = true → Open url fun files => fetch config transport files url)) ∧
    ∀ files, fetchBytes config transport files url = .ok (fetch config transport files url) :=
  ⟨fun noHttp noHttps => ⟨closed_of_not_allowed transport noHttp noHttps, open_of_allowed transport noHttp noHttps⟩,
    fun files => fetchBytes_eq config transport files url⟩

/-- A scheme in mixed case, and a path whose first character takes two bytes. -/
theorem permission_closes_umlaut :
    let files : FileSystem := fun path => if path = "ä" then .ok "red".toUTF8 else .error "not found"
    let noWeb : Transport := fun url => .error (.timeout url)
    fetch { allowFiles := false } noWeb files "FiLe://ä" = .error (.forbidden "FiLe://ä") ∧
      fetch { allowFiles := true } noWeb files "FiLe://ä" = .ok "red" ∧
      fetchBytes { allowFiles := true } noWeb files "FiLe://ä" = .ok (.ok "red") := by
  intro files noWeb
  have has : HasScheme "FiLe://ä".toList ['F', 'i', 'L', 'e'] := scheme?_eq_some_iff.mp (by decide)
  have file : Of "file" "FiLe://ä" := (of_iff has).mpr (by decide)
  have noHttp : ¬ Of "http" "FiLe://ä" := fun http => absurd (http.unique file) (by decide)
  have noHttps : ¬ Of "https" "FiLe://ä" := fun https => absurd (https.unique file) (by decide)
  have closed := ((permission_closes { allowFiles := false } noWeb "FiLe://ä").1 noHttp noHttps).1 rfl
  have opened := permission_closes { allowFiles := true } noWeb "FiLe://ä"
  have path : String.ofList ("FiLe://ä".toList.drop 7) = "ä" := by decide
  have read : fetch { allowFiles := true } noWeb files "FiLe://ä" = .ok "red" :=
    (((opened.1 noHttp noHttps).2 rfl).behind file).text files "red" (by rw [path]; rfl)
  exact ⟨closed.forbidden (.inr file) files, read, (opened.2 files).trans (congrArg Except.ok read)⟩

end

end ColorResolution
