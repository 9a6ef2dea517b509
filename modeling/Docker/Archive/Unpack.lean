import Docker.Reasoning.LexPath

/-!
# Unpack — placing the entries of a tar stream under a directory

`pkg/archive/archive.go`, `Unpack` and `createTarFile`, and the overlay `ConvertRead` of
`archive_linux.go`, as far as they decide where an entry goes.
The stream is the list of what `tr.Next()` returns; the file system is seen through the answers
of the successive `os.Lstat` calls, any sequence of them, so the model covers every state and
every change of the file system around the calls; and the calls that change it are recorded as
`Effect`s, in order, each with the paths it acts on.
-/

namespace Docker.Archive

open LexPath

/-- `hdr.Typeflag`; `other` is a flag `createTarFile` does not handle. -/
inductive Typeflag where
  | reg
  | regA
  | link
  | symlink
  | char
  | block
  | dir
  | fifo
  | xGlobalHeader
  | other (flag : UInt8)
  deriving DecidableEq, Repr

/-- The fields of `tar.Header` that decide where an entry goes. -/
structure Header where
  name : List Char
  typeflag : Typeflag
  linkname : List Char
  deriving DecidableEq, Repr

/-- `WhiteoutFormat`: how deletions and opaque directories are written on disk. -/
inductive WhiteoutFormat where
  | aufs
  | overlay
  deriving DecidableEq, Repr

/-- The fields of `TarOptions` that decide where entries go. -/
structure TarOptions where
  excludePatterns : List (List Char)
  noOverwriteDirNonDir : Bool
  whiteoutFormat : WhiteoutFormat

def whiteoutPrefix : List Char := ".wh.".toList

def whiteoutMetaPrefix : List Char := whiteoutPrefix ++ whiteoutPrefix

def whiteoutOpaqueDir : List Char := whiteoutMetaPrefix ++ ".opq".toList

/-- What `os.Lstat` reports: no such file, a directory, or another file. -/
inductive Stat where
  | notExist
  | dir
  | nonDir
  deriving DecidableEq, Repr

/-- A call that changes the file system. -/
inductive Effect where
  /-- `idtools.MkdirAllNewAs(parentPath, ...)`. -/
  | mkdirAll (path : List Char)
  | removeAll (path : List Char)
  | mkdir (path : List Char)
  /-- `os.OpenFile(path, os.O_CREATE|os.O_WRONLY, ...)`. -/
  | openFile (path : List Char)
  /-- `handleTarTypeBlockCharFifo(hdr, path)`. -/
  | mknod (path : List Char)
  /-- `os.Link(targetPath, path)`. -/
  | link (targetPath path : List Char)
  /-- `os.Symlink(hdr.Linkname, path)`. -/
  | symlink (linkname path : List Char)
  /-- `os.Lchown`, `system.Lsetxattr`, `handleLChmod` and the times, all on `path`. -/
  | setMeta (path : List Char)
  /-- `system.Chtimes` of a directory after the last entry. -/
  | chtimes (path : List Char)
  /-- `syscall.Setxattr(dir, "trusted.overlay.opaque", []byte{'y'}, 0)`. -/
  | setOpaque (dir : List Char)
  /-- `syscall.Mknod(originalPath, syscall.S_IFCHR, 0)` and `os.Chown(originalPath, ...)`. -/
  | whiteout (originalPath : List Char)
  deriving DecidableEq, Repr

/-- The errors `breakoutError` wraps. -/
inductive Breakout where
  | outside (name dest : List Char)
  | invalidHardlink (targetPath linkname : List Char)
  | invalidSymlink (path linkname : List Char)
  deriving DecidableEq, Repr

inductive UnpackError where
  | read (err : String)
  | rel (err : String)
  | breakout (b : Breakout)
  | cannotOverwriteDir (path dest : List Char)
  | cannotOverwriteNonDir (path dest : List Char)
  | unhandledType (flag : UInt8)
  deriving DecidableEq, Repr

/-- `%q` of a path without quotes, backslashes or unprintable characters. -/
def quote (s : List Char) : String :=
  "\"" ++ String.ofList s ++ "\""

def UnpackError.error : UnpackError → String
  | .read err => err
  | .rel err => err
  | .breakout (.outside name dest) => quote name ++ " is outside of " ++ quote dest
  | .breakout (.invalidHardlink targetPath linkname) =>
    "invalid hardlink " ++ quote targetPath ++ " -> " ++ quote linkname
  | .breakout (.invalidSymlink path linkname) =>
    "invalid symlink " ++ quote path ++ " -> " ++ quote linkname
  | .cannotOverwriteDir path dest =>
    "cannot overwrite directory " ++ quote path ++ " with non-directory " ++ quote dest
  | .cannotOverwriteNonDir path dest =>
    "cannot overwrite non-directory " ++ quote path ++ " with directory " ++ quote dest
  | .unhandledType flag => "Unhandled tar header type " ++ toString flag.toNat ++ "\n"

/-- What `Unpack` carries from call to call: the `os.Lstat` answers still to come, the effects so
far, and `dirs`, the directory headers whose times are set at the end. -/
structure UnpackState where
  answers : List Stat
  effects : List Effect
  dirs : List Header

/-- `os.Lstat(...)`: the next answer. -/
def UnpackState.lstat (st : UnpackState) : Stat × UnpackState :=
  match st.answers with
  | [] => (.notExist, st)
  | a :: as => (a, { st with answers := as })

def UnpackState.emit (st : UnpackState) (e : Effect) : UnpackState :=
  { st with effects := st.effects ++ [e] }

/-- `createTarFile(path, extractDir, hdr, ...)`. -/
def createTarFile (path extractDir : List Char) (hdr : Header) (st : UnpackState) :
    Except UnpackError Unit × UnpackState :=
  match hdr.typeflag with
  | .dir =>
    -- create directory unless it exists as a directory already
    let (fi, st) := st.lstat
    let st := if fi = .dir then st else st.emit (.mkdir path)
    (.ok (), st.emit (.setMeta path))
  | .reg | .regA => (.ok (), (st.emit (.openFile path)).emit (.setMeta path))
  | .block | .char | .fifo => (.ok (), (st.emit (.mknod path)).emit (.setMeta path))
  | .link =>
    let targetPath := join extractDir hdr.linkname
    -- check for hardlink breakout
    if hasPrefix targetPath extractDir = false then
      (.error (.breakout (.invalidHardlink targetPath hdr.linkname)), st)
    else (.ok (), (st.emit (.link targetPath path)).emit (.setMeta path))
  | .symlink =>
    let targetPath := join (dir path) hdr.linkname
    if hasPrefix targetPath extractDir = false then
      (.error (.breakout (.invalidSymlink path hdr.linkname)), st)
    else (.ok (), (st.emit (.symlink hdr.linkname path)).emit (.setMeta path))
  | .xGlobalHeader => (.ok (), st)
  | .other flag => (.error (.unhandledType flag), st)

/-- `overlayWhiteoutConverter.ConvertRead(hdr, path)`, on Linux: whether the entry is still to be
written. -/
def convertRead (path : List Char) (st : UnpackState) : Bool × UnpackState :=
  let base := base path
  let dir := dir path
  -- if a directory is marked as opaque by the AUFS special file, we need to translate that to overlay
  if base = whiteoutOpaqueDir then (false, st.emit (.setOpaque dir))
  -- if a file was deleted and we are using overlay, we need to create a character device
  else if hasPrefix base whiteoutPrefix then
    let originalBase := base.drop whiteoutPrefix.length
    let originalPath := join dir originalBase
    (false, st.emit (.whiteout originalPath))
  else (true, st)

/-- Not the root directory: ensure that the parent directory exists. -/
def ensureParent (dest name : List Char) (st : UnpackState) : UnpackState :=
  if hasSuffix name ['/'] then st
  else
    let parentPath := join dest (dir name)
    let (fi, st) := st.lstat
    if fi = .notExist then st.emit (.mkdirAll parentPath) else st

/-- The entry loop of `Unpack` and the directory times after it. -/
def unpackLoop (dest : List Char) (options : TarOptions) :
    List (Except String Header) → UnpackState → Except UnpackError Unit × UnpackState
  | [], st => (.ok (), st.dirs.foldl (fun st hdr => st.emit (.chtimes (join dest hdr.name))) st)
  | .error err :: _, st => (.error (.read err), st)
  | .ok hdr :: rest, st =>
    -- normalize name, for safety and for a simple is-root check
    let hdr := { hdr with name := clean hdr.name }
    if options.excludePatterns.any (fun ex => hasPrefix hdr.name ex) then
      unpackLoop dest options rest st
    else
      let st := ensureParent dest hdr.name st
      let path := join dest hdr.name
      match rel dest path with
      | .error err => (.error (.rel err), st)
      | .ok r =>
        if hasPrefix r ['.', '.', '/'] then (.error (.breakout (.outside hdr.name dest)), st)
        else
          let (fi, st) := st.lstat
          if options.noOverwriteDirNonDir ∧ fi = .dir ∧ hdr.typeflag ≠ .dir then
            (.error (.cannotOverwriteDir path dest), st)
          else if options.noOverwriteDirNonDir ∧ fi = .nonDir ∧ hdr.typeflag = .dir then
            (.error (.cannotOverwriteNonDir path dest), st)
          else if fi = .dir ∧ hdr.name = ['.'] then unpackLoop dest options rest st
          else
            -- an existing path is removed and replaced, unless both are directories
            let st :=
              if fi ≠ .notExist ∧ ¬(fi = .dir ∧ hdr.typeflag = .dir) then st.emit (.removeAll path)
              else st
            -- `getWhiteoutConverter` has a converter for the overlay format only
            let (writeFile, st) :=
              if options.whiteoutFormat = .overlay then convertRead path st else (true, st)
            if writeFile = false then unpackLoop dest options rest st else
            match createTarFile path dest hdr st with
            | (.error e, st) => (.error e, st)
            | (.ok (), st) =>
              let st := if hdr.typeflag = .dir then { st with dirs := st.dirs ++ [hdr] } else st
              unpackLoop dest options rest st

/-- `Unpack(decompressedArchive, dest, options)` with the `os.Lstat` answers `answers`. -/
def unpack (entries : List (Except String Header)) (dest : List Char) (options : TarOptions)
    (answers : List Stat) : Except UnpackError Unit × UnpackState :=
  unpackLoop dest options entries { answers := answers, effects := [], dirs := [] }

end Docker.Archive
