import CodeRetrieval.Json.Value
import CodeRetrieval.Source.Declaration

set_option autoImplicit false

namespace CodeRetrieval.Source

def Field.toJson (f : Field) : Json := .obj [
  ("name", .str f.name),
  ("type_name", .str f.typeName),
  ("modifiers", .ofStrings f.modifiers)]

def Param.toJson (p : Param) : Json := .obj [
  ("type_name", .str p.typeName),
  ("name", .str p.name)]

def Member.toJson (m : Member) : Json := .obj [
  ("name", .str m.name),
  ("kind", .str m.kind.name),
  ("return_type", .ofText? m.returnType),
  ("parameters", .arr (m.parameters.map Param.toJson)),
  ("modifiers", .ofStrings m.modifiers),
  ("annotations", .ofStrings m.annotations),
  ("body", .str m.body),
  ("documentation", .ofText? m.documentation),
  ("start_line", .ofNat m.startLine),
  ("end_line", .ofNat m.endLine)]

mutual

def Entity.toJson : Entity → Json
  | ⟨d, inner⟩ => .obj [
      ("name", .str d.name),
      ("qualified_name", .str d.qualifiedName),
      ("kind", .str d.kind),
      ("modifiers", .ofStrings d.modifiers),
      ("annotations", .ofStrings d.annotations),
      ("extends", .ofText? d.superclass),
      ("implements", .ofStrings d.interfaces),
      ("fields", .arr (d.fields.map Field.toJson)),
      ("members", .arr (d.members.map Member.toJson)),
      ("inner", .arr (entitiesToJson inner)),
      ("documentation", .ofText? d.documentation),
      ("start_line", .ofNat d.startLine),
      ("end_line", .ofNat d.endLine)]

def entitiesToJson : List Entity → List Json
  | [] => []
  | e :: rest => e.toJson :: entitiesToJson rest

end

def SourceFile.toJson (f : SourceFile) : Json := .obj [
  ("path", .str f.path),
  ("language", .str f.language),
  ("package", .ofText? f.package),
  ("imports", .ofStrings f.imports),
  ("entities", .arr (entitiesToJson f.entities))]

end CodeRetrieval.Source
