import ThreeAddress.Inspector.Style

/-!
# Colours of the inspector

The one palette that all panes draw with.
-/

namespace ThreeAddress.Inspector.Theme

def text : Color := .rgb 205 214 244
def primary : Color := .rgb 137 180 250
def secondary : Color := .rgb 250 179 135
def comment : Color := .rgb 108 112 134
def success : Color := .rgb 166 227 161
def error : Color := .rgb 243 139 168
def keyword : Color := .rgb 137 180 250
def string : Color := .rgb 250 179 135
def number : Color := .rgb 250 179 135
def borderFocused : Color := .rgb 249 226 175
def borderNormal : Color := .rgb 108 112 134
def barBackground : Color := .rgb 50 50 70
def label : Color := .rgb 249 226 175
def typeName : Color := .rgb 148 226 213
def temporary : Color := .rgb 245 194 231

end ThreeAddress.Inspector.Theme
