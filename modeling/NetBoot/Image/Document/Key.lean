import NetBoot.Text.Basic

namespace NetBoot.Document

def architectureKey : Text := "architecture".toList
def osKey : Text := "os".toList
def variantKey : Text := "variant".toList
def mediaTypeKey : Text := "mediaType".toList
def digestKey : Text := "digest".toList
def sizeKey : Text := "size".toList
def platformKey : Text := "platform".toList
def annotationsKey : Text := "annotations".toList
def schemaVersionKey : Text := "schemaVersion".toList
def configKey : Text := "config".toList
def layersKey : Text := "layers".toList
def manifestsKey : Text := "manifests".toList

end NetBoot.Document
