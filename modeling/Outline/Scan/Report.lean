/-
Module: Outline.Scan.Report
Layer: Scan
Purpose: The result of a scan as a JSON document: the outlines by path with the hashes of the files, and the
  reports of failures by path.
Main exports: FileOutline.toJson, ScanResult.toJson
-/
import Outline.Declaration.Wire
import Outline.Scan.Directory

namespace Outline

/-- What is written of a file under its path. -/
def FileOutline.toJson (f : FileOutline) : Json :=
  .object [("fileHash", .text f.hash), ("declarations", Declaration.listToJson f.declarations)]

/-- The result of a scan as a document. -/
def ScanResult.toJson (r : ScanResult) : Json :=
  .object
    [("files", .object (r.files.map fun f => (f.path, f.toJson))),
      ("errors", .object (r.errors.map fun (path, report) => (path, .text report)))]

end Outline
